import CodedVideo.Parse
import CodedVideo.Report

/-!
# General constraints

A profile may be narrowed by a long row of constraints, most of them flags that
exclude a coding tool.  `Constraint.first` lists them in the order in which they
are coded, and `Constraint.additional` lists those that a later edition added;
what comes after these is reserved and skipped.
-/

namespace CodedVideo

open Report (field)

/-- A constraint by its name, its width in bits and its largest value. -/
structure Constraint where
  name : String
  width : Nat
  max : Nat

namespace Constraint

/-- A constraint that is on or off. -/
def flag (name : String) : Constraint := ⟨name, 1, 1⟩

/-- The constraints that are always coded. -/
def first : List Constraint := [
  flag "gci_intra_only_constraint_flag",
  flag "gci_all_layers_independent_constraint_flag",
  flag "gci_one_au_only_constraint_flag",
  ⟨"gci_sixteen_minus_max_bitdepth_constraint_idc", 4, 8⟩,
  ⟨"gci_three_minus_max_chroma_format_constraint_idc", 2, 3⟩,
  flag "gci_no_mixed_nalu_types_in_pic_constraint_flag",
  flag "gci_no_trail_constraint_flag",
  flag "gci_no_stsa_constraint_flag",
  flag "gci_no_rasl_constraint_flag",
  flag "gci_no_radl_constraint_flag",
  flag "gci_no_idr_constraint_flag",
  flag "gci_no_cra_constraint_flag",
  flag "gci_no_gdr_constraint_flag",
  flag "gci_no_aps_constraint_flag",
  flag "gci_no_idr_rpl_constraint_flag",
  flag "gci_one_tile_per_pic_constraint_flag",
  flag "gci_pic_header_in_slice_header_constraint_flag",
  flag "gci_one_slice_per_pic_constraint_flag",
  flag "gci_no_rectangular_slice_constraint_flag",
  flag "gci_one_slice_per_subpic_constraint_flag",
  flag "gci_no_subpic_info_constraint_flag",
  ⟨"gci_three_minus_max_log2_ctu_size_constraint_idc", 2, 3⟩,
  flag "gci_no_partition_constraints_override_constraint_flag",
  flag "gci_no_mtt_constraint_flag",
  flag "gci_no_qtbtt_dual_tree_intra_constraint_flag",
  flag "gci_no_palette_constraint_flag",
  flag "gci_no_ibc_constraint_flag",
  flag "gci_no_isp_constraint_flag",
  flag "gci_no_mrl_constraint_flag",
  flag "gci_no_mip_constraint_flag",
  flag "gci_no_cclm_constraint_flag",
  flag "gci_no_ref_pic_resampling_constraint_flag",
  flag "gci_no_res_change_in_clvs_constraint_flag",
  flag "gci_no_weighted_prediction_constraint_flag",
  flag "gci_no_ref_wraparound_constraint_flag",
  flag "gci_no_temporal_mvp_constraint_flag",
  flag "gci_no_sbtmvp_constraint_flag",
  flag "gci_no_amvr_constraint_flag",
  flag "gci_no_bdof_constraint_flag",
  flag "gci_no_smvd_constraint_flag",
  flag "gci_no_dmvr_constraint_flag",
  flag "gci_no_mmvd_constraint_flag",
  flag "gci_no_affine_motion_constraint_flag",
  flag "gci_no_prof_constraint_flag",
  flag "gci_no_bcw_constraint_flag",
  flag "gci_no_ciip_constraint_flag",
  flag "gci_no_gpm_constraint_flag",
  flag "gci_no_luma_transform_size_64_constraint_flag",
  flag "gci_no_transform_skip_constraint_flag",
  flag "gci_no_bdpcm_constraint_flag",
  flag "gci_no_mts_constraint_flag",
  flag "gci_no_lfnst_constraint_flag",
  flag "gci_no_joint_cbcr_constraint_flag",
  flag "gci_no_sbt_constraint_flag",
  flag "gci_no_act_constraint_flag",
  flag "gci_no_explicit_scaling_list_constraint_flag",
  flag "gci_no_dep_quant_constraint_flag",
  flag "gci_no_sign_data_hiding_constraint_flag",
  flag "gci_no_cu_qp_delta_constraint_flag",
  flag "gci_no_chroma_qp_offset_constraint_flag",
  flag "gci_no_sao_constraint_flag",
  flag "gci_no_alf_constraint_flag",
  flag "gci_no_ccalf_constraint_flag",
  flag "gci_no_lmcs_constraint_flag",
  flag "gci_no_ladf_constraint_flag",
  flag "gci_no_virtual_boundaries_constraint_flag"]

/-- The constraints among the additional bits. -/
def additional : List Constraint := [
  flag "gci_all_rap_pictures_constraint_flag",
  flag "gci_no_extended_precision_processing_constraint_flag",
  flag "gci_no_ts_residual_coding_rice_constraint_flag",
  flag "gci_no_rrc_rice_extension_constraint_flag",
  flag "gci_no_persistent_rice_adaptation_constraint_flag",
  flag "gci_no_reverse_last_sig_coeff_constraint_flag"]

/-- Reads the values of some constraints. -/
def readAll : List Constraint → Parse (List Nat)
  | [] => return []
  | c :: rest => do
    let value ← Parse.uMax c.width c.max
    let values ← readAll rest
    return value :: values

/-- The report of a constraint with its value. -/
def reportValue (c : Constraint) (value : Nat) : String × Report :=
  if c.width = 1 then field c.name (value == 1) else field c.name value

end Constraint

/-- The constraints that a stream obeys beyond its profile. -/
structure GeneralConstraints where
  /-- Whether constraints are coded. -/
  present : Bool := false
  /-- The values of `Constraint.first`. -/
  values : List Nat := []
  /-- The number of bits for constraints of later editions. -/
  additionalBits : Nat := 0
  /-- The values of `Constraint.additional`, if there are enough bits for them. -/
  additional : List Nat := []
  deriving DecidableEq, Repr

namespace GeneralConstraints

instance : Inhabited GeneralConstraints := ⟨{}⟩

/-- Reads general_constraints_info(). -/
def read : Parse GeneralConstraints := do
  let present ← Parse.flag
  let values ← Parse.given present (Constraint.readAll Constraint.first)
  let additionalBits ← Parse.given present (Parse.u 8)
  let additional ←
    Parse.given (additionalBits > 5) (Constraint.readAll Constraint.additional)
  Parse.skip (additionalBits - additional.length)
  let _ ← Parse.align Parse.done
  return { present, values, additionalBits, additional }

/-- Whether the constraint with a given name is on. -/
def isOn (constraints : GeneralConstraints) (name : String) : Bool :=
  ((Constraint.first.zip constraints.values).find? fun (c, _) => c.name == name).any
    fun (_, value) => value != 0

instance : Reportable GeneralConstraints where
  report g :=
    .group (
      [field "gci_present_flag" g.present, field "gci_num_additional_bits" g.additionalBits]
      ++ (Constraint.first.zip g.values).map (fun (c, value) => c.reportValue value)
      ++ (Constraint.additional.zip g.additional).map (fun (c, value) => c.reportValue value))

end GeneralConstraints

end CodedVideo
