import CodedVideo.Nal.Framing
import CodedVideo.Nal.Writer
import CodedVideo.Partition.Subpicture
import CodedVideo.ScalingList
import CodedVideo.OrderCount
import CodedVideo.PictureBuffer
import CodedVideo.Inheritance
import CodedVideo.Hrd
import CodedVideo.Vui
import CodedVideo.Vps
import CodedVideo.RefLists
import CodedVideo.ChromaQp
import CodedVideo.Sps
import CodedVideo.Pps
import CodedVideo.AccessUnit
import CodedVideo.Aps
import CodedVideo.WeightTable
import CodedVideo.PictureHeader
import CodedVideo.Slice.Header
import CodedVideo.Decoder
import CodedVideo.Proofs.ByteStream
import CodedVideo.Proofs.Outcome
import CodedVideo.Proofs.TileGrid
import CodedVideo.Proofs.Coverage
import CodedVideo.Proofs.SlicePartition
import CodedVideo.Proofs.SliceCorners
import CodedVideo.Proofs.PicturePartition
import CodedVideo.Proofs.ParameterSets
import CodedVideo.Proofs.SliceAssignment
import CodedVideo.Proofs.SlicePlace
import CodedVideo.Proofs.HeaderFeatures
import CodedVideo.Proofs.Reachable
import CodedVideo.Proofs.Slices
import CodedVideo.Proofs.SliceContainment
import CodedVideo.Proofs.BitString
import CodedVideo.Proofs.BitCursor
import CodedVideo.Proofs.EmulationPrevention
import CodedVideo.Proofs.ListCoding
import CodedVideo.Proofs.Marking
import CodedVideo.Proofs.BufferRuns
import CodedVideo.Proofs.HeldPictures
import CodedVideo.Proofs.ListTargets
import CodedVideo.Proofs.OrderTracking
import CodedVideo.Proofs.SetFeatures
import CodedVideo.Proofs.Commits
import CodedVideo.Proofs.Passing
import CodedVideo.Proofs.SliceBoundary
import CodedVideo.Proofs.Consumed
import CodedVideo.Proofs.CarriedPicture
import CodedVideo.Proofs.EscapeTransparency
import CodedVideo.Proofs.RefusedHeaders
import CodedVideo.Proofs.QpRange
import CodedVideo.Proofs.ListResolution
import CodedVideo.Proofs.EffectiveSettings
import CodedVideo.Proofs.StopBit
import CodedVideo.Proofs.ExtensionData
import CodedVideo.Proofs.LayeredCounts
import CodedVideo.Proofs.LayerClosure
import CodedVideo.Proofs.SetsInUse
import CodedVideo.Proofs.PartialReset
import CodedVideo.Proofs.GradualRefresh
import CodedVideo.Proofs.BoundedMap
import CodedVideo.Proofs.StoredSets
import CodedVideo.Proofs.SequenceLimits
import CodedVideo.Proofs.SubpictureTiling
import CodedVideo.Proofs.PictureLimits
import CodedVideo.Proofs.TreeOverrides
import CodedVideo.Proofs.CheckedReading
import CodedVideo.Proofs.HeaderArithmetic
import CodedVideo.Proofs.SliceArithmetic
import CodedVideo.Proofs.StoredBounds
import CodedVideo.Proofs.InterLayerReferences
import CodedVideo.Proofs.RepeatedMarking
import CodedVideo.Proofs.WrittenLists
import CodedVideo.Proofs.StoredCandidates
import CodedVideo.Proofs.SelectedLists
import CodedVideo.Proofs.QpCurves
import CodedVideo.Proofs.LayerIndices
import CodedVideo.Proofs.AvailableSets
import CodedVideo.Proofs.Refusals
import CodedVideo.Proofs.ActiveReferences
import CodedVideo.Proofs.SubpictureSlices
import CodedVideo.Proofs.MatrixCoding
import CodedVideo.Proofs.EntryPoints
import CodedVideo.Proofs.WrittenBits
import CodedVideo.Proofs.LookAhead
import CodedVideo.Proofs.Codewords
import CodedVideo.Proofs.PartSizes
import CodedVideo.Proofs.WeightPrecision
import CodedVideo.Proofs.Overrun
