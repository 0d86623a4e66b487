import Mathlib.Data.List.Forall2
import Slipway.Proofs.Validation.Image

/-!
# `Slipway.Proofs.Validation.Change`: specs with some fields changed

A change gives new values to the fields that it names. The others keep theirs (`changed_keeps`), and
so does the tag if only the image is named (`changed_image`).

An image reference is split only if it is given without a tag when a spec is made. `Obtained`
follows a spec from there through any number of changes and remembers the reference by which its
image was given last. The image is that reference, or what stays of it when it is split
(`Obtained.image_eq`, by induction on the changes), so `carries_second_tag_iff` can say which specs
carry a tag too many. -/

set_option autoImplicit false

namespace Slipway

open Slipway.Validation

namespace Validation

/-- The fields of a spec as they are found in changes to another. -/
def changeFields (s : Spec) (changes : Fields) : SpecFields :=
  ⟨fun name check get => optional name (get s) check changes⟩

section
variable {s t : Spec} {changes : Fields} {name : String}

/-- A change is valid if its fields give the spec. -/
theorem changed_eq_valid : changed s changes = .valid t ↔ (changeFields s changes).Gives t :=
  specFrom_eq_valid

/-- A field that is left out has its default. -/
theorem eq_of_optional {α : Type} {default v : α} {check : Check α} {fields : Fields}
    (h : optional name default check fields = .valid v) (hnone : Datum.entry? name fields = none) :
    v = default := by
  rw [optional, hnone] at h
  cases h
  rfl

/-- Records whose entries under a name are alike have the same field of that name. -/
theorem field?_record_congr {xs ys : List (String × Datum)}
    (h : List.Forall₂ (fun x y => x.1 = y.1 ∧ (x.1 = name → x.2 = y.2)) xs ys) :
    (Datum.record xs).field? name = (Datum.record ys).field? name := by
  induction h with
  | nil => rfl
  | @cons x y xs ys hxy hrest ih =>
    obtain ⟨hkey, hvalue⟩ := hxy
    show (if x.1 == name then some x.2 else _) = if y.1 == name then some y.2 else _
    rw [← hkey]
    -- The first entry is the field, or the field is looked for in the rest.
    by_cases hname : x.1 = name
    · simp [hname, hvalue hname]
    · simp only [beq_iff_eq, hname, if_false]
      exact ih

/-- A change leaves the fields alone that it does not name. -/
theorem changed_keeps (h : changed s changes = .valid t)
    (hname : Datum.entry? name changes = none) :
    t.dump.field? name = s.dump.field? name := by
  have ht := changed_eq_valid.mp h
  refine field?_record_congr ?_
  have hkeep : ∀ {α : Type} {default v : α} {check : Check α} (key : String) (dump : α → Datum),
      optional key default check changes = .valid v →
        key = key ∧ (key = name → dump v = dump default) := by
    intro α default v check key dump hv
    refine ⟨rfl, fun hkey => ?_⟩
    rw [eq_of_optional hv (hkey ▸ hname)]
  -- one entry for each field, in the order of the dump
  exact
    .cons (hkeep "image" .text ht.image) <|
    .cons (hkeep "tag" .text ht.tag) <|
    .cons (hkeep "name" (Datum.ofOption .text) ht.name) <|
    .cons (hkeep "entrypoint" (Datum.ofOption .text) ht.entrypoint) <|
    .cons (hkeep "cmd" (Datum.ofList .text) ht.cmd) <|
    .cons (hkeep "env" Datum.ofTable ht.env) <|
    .cons (hkeep "labels" Datum.ofTable ht.labels) <|
    .cons (hkeep "exposed_ports" (Datum.ofList Port.dump) ht.exposedPorts) <|
    .cons (hkeep "copy_to" (Datum.ofList Payload.dump) ht.copyTo) <|
    .cons (hkeep "mounts" (Datum.ofList Mount.dump) ht.mounts) <|
    .cons (hkeep "healthcheck" (Datum.ofOption Healthcheck.dump) ht.healthcheck) <|
    .cons (hkeep "wait_for" (fun cs => .list (Condition.dumpAll cs)) ht.waitFor) <|
    .cons (hkeep "exec_before_ready" (Datum.ofList Source.dump) ht.execBeforeReady) <|
    .cons (hkeep "exec_after_start" (Datum.ofList Source.dump) ht.execAfterStart) <|
    .cons (hkeep "startup_timeout" (Datum.ofOption .float) ht.startupTimeout) .nil

/-- A text that is an image is that image. -/
theorem eq_of_image_text {reference image : String}
    (h : (imageCheck (.text reference)).under (.key "image") = .valid image) :
    image = reference := by
  rw [image_text] at h
  split at h
  · cases h
  · cases h
    rfl

/-- A change of the image sets it as it is written. -/
theorem image_of_changed {reference : String} (h : changed s changes = .valid t)
    (himage : Datum.entry? "image" changes = some (.text reference)) : t.image = reference := by
  have ht : optional "image" s.image imageCheck changes =
      .valid t.image := (changed_eq_valid.mp h).image
  rw [optional_of_entry himage] at ht
  exact eq_of_image_text ht

/-- A tag that is given is the tag. -/
theorem tag_of_changed {d : Datum} (h : changed s changes = .valid t)
    (htag : Datum.entry? "tag" changes = some d) : string d = .valid t.tag := by
  have ht : optional "tag" s.tag string changes = .valid t.tag := (changed_eq_valid.mp h).tag
  rw [optional_of_entry htag, Checked.under_eq_valid] at ht
  exact ht

/-- A change without a tag keeps the tag. -/
theorem tag_of_unchanged (h : changed s changes = .valid t)
    (htag : Datum.entry? "tag" changes = none) : t.tag = s.tag :=
  eq_of_optional (changed_eq_valid.mp h).tag htag

/-- A change without an image keeps the image. -/
theorem image_of_unchanged (h : changed s changes = .valid t)
    (himage : Datum.entry? "image" changes = none) : t.image = s.image :=
  eq_of_optional (changed_eq_valid.mp h).image himage

/-- A change of the image changes nothing else, the tag included. -/
theorem changed_image (s : Spec) {reference : String} (hne : reference ≠ "") :
    changed s [(.text "image", .text reference)] = .valid { s with image := reference } := by
  have hself : specFrom (changeFields s []) = .valid s := rfl
  -- All other fields stay as they are.
  have hagrees :
      (changeFields s []).Agrees (changeFields s [(.text "image", .text reference)]) := by
    intro α name check get himage htag
    simp [changeFields, optional, Datum.entry?, Datum.isKey, himage.symm]
  have himage : (changeFields s [(.text "image", .text reference)]).field "image"
      imageCheck Spec.image = .valid reference := by
    show optional "image" s.image imageCheck
      [(.text "image", .text reference)] = .valid reference
    rw [optional_of_entry rfl, image_text, if_neg hne]
  have htag : (changeFields s [(.text "image", .text reference)]).field "tag" string Spec.tag =
      .valid s.tag := rfl
  show specFrom (changeFields s [(.text "image", .text reference)]) = _
  rw [specFrom_of_agrees hself hagrees htag, himage]
  rfl

end

end Validation

namespace Spec

section
variable {fields : Fields} {s : Spec} {reference : String}

/-- The fields that a spec has, its reference being split. -/
theorem gives_of_spec (h : Validation.spec (.mapping fields) = .valid s) :
    (dataFields (splitImage fields)).Gives s := specFrom_eq_valid.mp h

/-- A reference is the image as it is, unless no tag is given with it. -/
theorem image_of_spec (h : Validation.spec (.mapping fields) = .valid s)
    (himage : Datum.entry? "image" fields = some (.text reference)) :
    s.image = if Datum.entry? "tag" fields = none then (partsOf reference).1 else reference := by
  have hs : required "image" imageCheck (splitImage fields) =
      .valid s.image := (gives_of_spec h).image
  cases htag : Datum.entry? "tag" fields with
  | none =>
    rw [required_of_entry (image_of_reference htag himage)] at hs
    exact eq_of_image_text hs
  | some d =>
    rw [splitImage_of_tag htag, required_of_entry himage] at hs
    exact eq_of_image_text hs

/-- A tag that is given is the tag. -/
theorem tag_of_spec {d : Datum} (h : Validation.spec (.mapping fields) = .valid s)
    (htag : Datum.entry? "tag" fields = some d) : string d = .valid s.tag := by
  have hs : Validation.optional "tag" defaultTag string (splitImage fields) = .valid s.tag :=
    (gives_of_spec h).tag
  rw [splitImage_of_tag htag, optional_of_entry htag, Checked.under_eq_valid] at hs
  exact hs

end

/-! ### Second tags -/

/-- Whether an image reference carries one tag at most. -/
def HasOneTagAtMost (reference : String) : Prop :=
  (Text.afterLast '/' reference.toList).count ':' ≤ 1

instance (reference : String) : Decidable (HasOneTagAtMost reference) :=
  inferInstanceAs (Decidable ((Text.afterLast '/' reference.toList).count ':' ≤ 1))

/-- A spec that was made from data and then changed any number of times, with the reference that its
image was given by last, and whether that was split: it is if it was given without a tag when the
spec was made. -/
inductive Obtained : (reference : String) → (isSplit : Bool) → Spec → Prop where
  | made {fields : Fields} {reference : String} {s : Spec}
      (himage : Datum.entry? "image" fields = some (.text reference))
      (hone : HasOneTagAtMost reference)
      (hs : Validation.spec (.mapping fields) = .valid s) :
      Obtained reference (Datum.entry? "tag" fields).isNone s
  | changed {reference : String} {isSplit : Bool} {s t : Spec} {changes : Fields}
      (h : Obtained reference isSplit s) (himage : Datum.entry? "image" changes = none)
      (ht : Validation.changed s changes = .valid t) : Obtained reference isSplit t
  | renamed {reference next : String} {isSplit : Bool} {s t : Spec} {changes : Fields}
      (h : Obtained reference isSplit s) (himage : Datum.entry? "image" changes = some (.text next))
      (hone : HasOneTagAtMost next) (ht : Validation.changed s changes = .valid t) :
      Obtained next false t

section
variable {reference : String} {isSplit : Bool} {s : Spec}

/-- What stays of a reference when it is split carries no tag. -/
theorem not_isTagged_partsOf (hone : HasOneTagAtMost reference) :
    ¬ IsTagged (partsOf reference).1 := by
  by_cases h : IsTagged reference
  · obtain ⟨name, tag, rfl, hcolon, hslash⟩ := h.exists_append
    rw [partsOf_append hcolon hslash]
    have hcut : (name ++ ":" ++ tag).toList = name.toList ++ ':' :: tag.toList := by simp
    rw [HasOneTagAtMost, hcut, afterLast_slash_cut hslash, List.count_append,
      List.count_cons_self] at hone
    have hzero : (Text.afterLast '/' name.toList).count ':' = 0 := by omega
    exact List.count_eq_zero.mp hzero
  · rw [partsOf_of_not_isTagged h]
    exact h

/-- The image of a spec is the reference that it was given by last, or what stays of it when it is
split. -/
theorem Obtained.image_eq (h : Obtained reference isSplit s) :
    HasOneTagAtMost reference ∧ s.image = if isSplit then (partsOf reference).1 else reference := by
  induction h with
  | made himage hone hs =>
    refine ⟨hone, ?_⟩
    rw [image_of_spec hs himage]
    simp
  | changed _ himage ht ih => rwa [image_of_unchanged ht himage]
  | renamed _ himage hone ht _ => exact ⟨hone, image_of_changed ht himage⟩

/-- An image carries a tag iff it was given last by a reference that does and that was not split. -/
theorem Obtained.isTagged_iff (h : Obtained reference isSplit s) :
    IsTagged s.image ↔ isSplit = false ∧ IsTagged reference := by
  obtain ⟨hone, himage⟩ := h.image_eq
  rw [himage]
  cases isSplit with
  | false => simp
  | true => simpa using not_isTagged_partsOf hone

/-- The colons after the last slash of the reference of a spec, if its tag is one. -/
theorem count_imageRef (hcolon : ':' ∉ s.tag.toList) (hslash : '/' ∉ s.tag.toList) :
    (Text.afterLast '/' s.imageRef.toList).count ':' =
      (Text.afterLast '/' s.image.toList).count ':' + 1 := by
  have hcut : s.imageRef.toList = s.image.toList ++ ':' :: s.tag.toList := by simp [imageRef]
  rw [hcut, afterLast_slash_cut hslash, List.count_append, List.count_cons_self,
    List.count_eq_zero_of_not_mem hcolon]

/-- The reference of a spec carries two tags iff its image carries one. -/
theorem Obtained.count_imageRef (h : Obtained reference isSplit s) (hcolon : ':' ∉ s.tag.toList)
    (hslash : '/' ∉ s.tag.toList) :
    (Text.afterLast '/' s.imageRef.toList).count ':' =
      if isSplit = false ∧ IsTagged reference then 2 else 1 := by
  rw [Spec.count_imageRef hcolon hslash]
  obtain ⟨hone, himage⟩ := h.image_eq
  -- The reference has its own colon, and a tag in the image adds another.
  split
  · rename_i htagged
    have hfound : 0 < (Text.afterLast '/' reference.toList).count ':' :=
      List.count_pos_iff.mpr htagged.2
    rw [HasOneTagAtMost] at hone
    rw [himage, htagged.1, if_neg Bool.false_ne_true]
    omega
  · rename_i hnot
    have huntagged : ':' ∉ Text.afterLast '/' s.image.toList := fun hmem =>
      hnot (h.isTagged_iff.mp hmem)
    rw [List.count_eq_zero_of_not_mem huntagged]

end

/-- Take a spec that was made from data and changed any number of times, with references that carry
one tag at most. Its image carries a tag, and so its reference carries two, iff the reference by
which the image was given last carries a tag and was not split: only a reference that is given
without a tag when the spec is made is split. A tag that is given is the tag, in data and in
changes. A change of the image is always possible, but the tag stays, so the reference of the
changed spec is never the one that was given. Fields that a change does not name are left alone. -/
theorem carries_second_tag_iff (s : Spec) :
    (∀ reference isSplit, Obtained reference isSplit s →
      (IsTagged s.image ↔ isSplit = false ∧ IsTagged reference) ∧
      (':' ∉ s.tag.toList → '/' ∉ s.tag.toList →
        (Text.afterLast '/' s.imageRef.toList).count ':' =
          if isSplit = false ∧ IsTagged reference then 2 else 1)) ∧
    (∀ fields given, Validation.spec (.mapping fields) = .valid s →
      Datum.entry? "tag" fields = some given → string given = .valid s.tag) ∧
    (∀ reference, reference ≠ "" →
      Validation.changed s [(.text "image", .text reference)] =
        .valid { s with image := reference }) ∧
    ∀ changes t, Validation.changed s changes = .valid t →
      (∀ given, Datum.entry? "tag" changes = some given → string given = .valid t.tag) ∧
      (∀ reference, Datum.entry? "image" changes = some (.text reference) → t.image = reference ∧
        (Datum.entry? "tag" changes = none →
          t.imageRef = reference ++ ":" ++ s.tag ∧ t.imageRef ≠ reference)) ∧
      ∀ name, Datum.entry? name changes = none → t.dump.field? name = s.dump.field? name := by
  refine ⟨fun reference isSplit h => ⟨h.isTagged_iff, h.count_imageRef⟩,
    fun fields given hs htag => tag_of_spec hs htag, fun reference hne => changed_image s hne,
    fun changes t ht => ⟨fun given htag => tag_of_changed ht htag, fun reference himage => ?_,
      fun name hname => changed_keeps ht hname⟩⟩
  refine ⟨image_of_changed ht himage, fun htag => ?_⟩
  have href : t.imageRef = reference ++ ":" ++ s.tag := by
    rw [imageRef, image_of_changed ht himage, tag_of_unchanged ht htag]
  refine ⟨href, fun heq => ?_⟩
  -- The reference of the spec is longer than the one that was given.
  have hlength : (reference ++ ":" ++ s.tag).length = reference.length := by rw [← href, heq]
  simp only [String.length_append] at hlength
  have hcolon : ":".length = 1 := rfl
  omega

/-- A spec that was made from a tagged reference carries two tags once it is given another one. -/
theorem carries_second_tag_of_renamed :
    let s := ofImage "redis" "7.2"
    let t := { s with image := "redis:8" }
    Validation.spec (.mapping [(.text "image", .text "redis:7.2")]) = .valid s ∧
      Validation.changed s [(.text "image", .text "redis:8")] = .valid t ∧
      Obtained "redis:8" false t ∧ IsTagged "redis:8" ∧ IsTagged t.image ∧
      (Text.afterLast '/' t.imageRef.toList).count ':' = 2 ∧ t.imageRef ≠ "redis:8" := by
  intro s t
  have hs : Validation.spec (.mapping [(.text "image", .text "redis:7.2")]) = .valid s := rfl
  have ht : Validation.changed s [(.text "image", .text "redis:8")] = .valid t :=
    (carries_second_tag_iff s).2.2.1 "redis:8" (by decide)
  -- The image was given to a spec that had one already, so it is not split.
  have hobtained : Obtained "redis:8" false t :=
    .renamed (.made rfl (by decide) hs) rfl (by decide) ht
  have htagged : IsTagged "redis:8" := by decide
  obtain ⟨htagged_iff, hcount⟩ := (carries_second_tag_iff t).1 _ _ hobtained
  obtain ⟨-, hreference⟩ := ((carries_second_tag_iff s).2.2.2 _ _ ht).2.1 "redis:8" rfl
  exact ⟨hs, ht, hobtained, htagged, htagged_iff.mpr ⟨rfl, htagged⟩,
    (hcount (by decide) (by decide)).trans (if_pos ⟨rfl, htagged⟩), (hreference rfl).2⟩

end Spec
end Slipway
