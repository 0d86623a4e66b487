import Slipway.Proofs.Validation.Condition
import Slipway.Validation.Spec

/-!
# `Slipway.Proofs.Validation.Spec`: specs and containers are restored

A spec changes some of what it is given: an image reference is split into image and tag, and ports
that are listed again are dropped. Neither happens to what a spec is dumped as. The dump has a tag,
so its image is not split again (`splitImage_of_tag`), and its ports are distinct. -/

set_option autoImplicit false

namespace Slipway.Validation

open Checked (yields_seq yields_fmap yields_andThen map_eq_valid)

/-- Kinds of mounts are read back from their names. -/
theorem mountKind_lossless : Lossless (named MountKind.all MountKind.name) fun k => .text k.name :=
  named_lossless fun k => by cases k <;> rfl

/-- Mounts are restored. -/
theorem mount_restores : Restores mount Mount.dump := by
  refine restores_record fun entries m hread => ⟨_, rfl, ?_⟩
  simp only [mountFields, yields_andThen, yields_seq, yields_fmap] at hread ⊢
  obtain ⟨kind, -, target, -, source, -, readOnly, -, hrule⟩ := hread
  -- The fields are those that the rule was asked about, so it allows them again.
  split at hrule
  · obtain ⟨_, hfail, -⟩ := hrule
    cases hfail
  · obtain ⟨m', hm, rfl⟩ := hrule
    cases hm
    refine ⟨_, mountKind_lossless.optional rfl, _, string_lossless.required rfl,
      _, optionalText_lossless.optional rfl, _, boolean_lossless.optional rfl, ?_⟩
    dsimp only
    rw [if_neg ‹_›]
    exact ⟨_, rfl, rfl⟩

/-- Healthchecks are restored. -/
theorem healthcheck_restores : Restores healthcheck Healthcheck.dump := by
  refine restores_record fun entries h hread => ⟨_, rfl, ?_⟩
  simp only [yields_seq, yields_fmap] at hread ⊢
  obtain ⟨test, htest, interval, -, timeout, -, retries, -, startPeriod, -, rfl⟩ := hread
  exact ⟨_, argv_restores.required htest rfl, _, number_lossless.optional rfl,
    _, number_lossless.optional rfl, _, integer_lossless.optional rfl, _,
    number_lossless.optional rfl, rfl⟩

/-- Containers are restored. -/
theorem container_restores : Restores container Container.dump := by
  refine restores_record fun entries c hread => ⟨_, rfl, ?_⟩
  simp only [yields_seq, yields_fmap] at hread ⊢
  obtain ⟨id, -, host, -, ports, hports, startedAt, -, rfl⟩ := hread
  exact ⟨_, string_lossless.required rfl, _, string_lossless.required rfl,
    _, integer_lossless.restores.table.optional rfl hports rfl,
    _, (timestamp_lossless.nullable (by simp)).optional rfl, rfl⟩

/-! ### Specs -/

/-- An image is only split if no tag is given. -/
theorem splitImage_of_tag {fields : Fields} {d : Datum} (h : Datum.entry? "tag" fields = some d) :
    splitImage fields = fields := by
  simp only [splitImage, h]

/-- Images are restored. -/
theorem image_restores : Restores (fun d => (nonemptyString d).map Subtype.val) .text := by
  intro d s hd
  obtain ⟨image, -, rfl⟩ := map_eq_valid.mp hd
  exact map_eq_valid.mpr ⟨image, nonemptyString_lossless image, rfl⟩

/-- A list that was rid of its repetitions has none. -/
theorem eraseDups_eraseDups {α : Type} [BEq α] [LawfulBEq α] (xs : List α) :
    xs.eraseDups.eraseDups = xs.eraseDups := by
  match xs with
  | [] => rfl
  | x :: rest =>
    -- What is left after the first item does not have it again.
    have hleft : ((rest.filter fun y => !y == x).eraseDups).filter (fun y => !y == x) =
        (rest.filter fun y => !y == x).eraseDups := by
      rw [List.filter_eq_self]
      intro y hy
      exact (List.mem_filter.mp (List.mem_eraseDups.mp hy)).2
    have hshorter : (rest.filter fun y => !y == x).length ≤ rest.length := List.length_filter_le _ _
    rw [List.eraseDups_cons, List.eraseDups_cons, hleft, eraseDups_eraseDups]
termination_by xs.length
decreasing_by simp only [List.length_cons]; omega

/-- Exposed ports are restored, each of them once. -/
theorem exposedPorts_restores :
    Restores (fun d => (tuple port d).map distinctPorts) (Datum.ofList Port.dump) := by
  intro d ports hd
  obtain ⟨listed, -, rfl⟩ := map_eq_valid.mp hd
  exact map_eq_valid.mpr ⟨_, port_lossless.tuple _, eraseDups_eraseDups listed⟩

/-- Environments are restored. -/
theorem env_restores : Restores (table string) Datum.ofTable := string_lossless.restores.table

/-- Lists of sources are restored. -/
theorem sources_restore : Restores (tuple source) (Datum.ofList Source.dump) :=
  source_restores.tuple

/-- Specifications are restored. -/
theorem spec_restores : Restores spec Spec.dump := by
  have hhealthcheck : Restores (nullable healthcheck) (Datum.ofOption Healthcheck.dump) :=
    healthcheck_restores.nullable fun h => by simp [Healthcheck.dump, Datum.record]
  have htimeout : Restores (nullable positiveNumber) (Datum.ofOption .float) :=
    positiveNumber_restores.nullable (by simp)
  refine restores_record fun entries s hread => ⟨_, rfl, ?_⟩
  -- The image of the data may have been split, but that of the dump is not.
  rw [specFields, splitImage_of_tag rfl]
  simp only [specFields, specFrom, yields_seq, yields_fmap, String.reduceEq, if_true, if_false]
    at hread ⊢
  obtain ⟨image, himage, tag, -, name, -, entrypoint, -, cmd, -, env, henv, labels, hlabels,
    ports, hports, copyTo, hcopy, mounts, hmounts, check, hcheck, waitFor, hwait, before, hbefore,
    after, hafter, timeout, hlimit, rfl⟩ := hread
  exact ⟨_, image_restores.required himage rfl, _, string_lossless.optional rfl,
    _, optionalText_lossless.optional rfl, _, optionalText_lossless.optional rfl,
    _, string_lossless.tuple.optional rfl, _, env_restores.optional rfl henv rfl,
    _, env_restores.optional rfl hlabels rfl, _, exposedPorts_restores.optional rfl hports rfl,
    _, payload_restores.tuple.optional rfl hcopy rfl, _,
    mount_restores.tuple.optional rfl hmounts rfl,
    _, hhealthcheck.optional rfl hcheck rfl, _, conditions_restore.optional rfl hwait rfl,
    _, sources_restore.optional rfl hbefore rfl, _, sources_restore.optional rfl hafter rfl,
    _, htimeout.optional rfl hlimit rfl, rfl⟩

end Slipway.Validation
