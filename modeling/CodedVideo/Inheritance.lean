/-!
# Parameters of a slice that its picture header may carry

Some parameters are carried either once in the picture header or in each slice
header.  A flag of the picture parameter set tells which of the two it is.
-/

namespace CodedVideo

/-- The value that applies to a slice: its own, if values are not carried in the
picture header and the slice signals one, and that of the picture otherwise. -/
def inherit {α : Type} (inPictureHeader : Bool) (ofPicture : α) (signalled : Bool) (own : α) : α :=
  if !inPictureHeader && signalled then own else ofPicture

end CodedVideo
