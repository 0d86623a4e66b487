import Slipway.Proofs.Text.Cut
import Slipway.Proofs.Validation.Spec

/-!
# `Slipway.Proofs.Validation.Image`: image references of specs

A reference is tagged if a colon stands after its last slash. `splitReference?_eq_some_iff` says
where a reference is cut: at its last colon, if no slash follows. `isTagged_iff` says that both come
to the same.

A spec has the values that its fields give, and whether they are found in data or in changes to
another spec does not matter for that (`SpecFields.Gives`). If the other fields are known to be
sound, it is the image that decides (`specFrom_of_agrees`). So `splits_references` can say of any
data without a tag which spec it is, by the reference in it alone. -/

set_option autoImplicit false

namespace Slipway

open Slipway.Validation

namespace Spec

variable {r name tag front last : List Char}

/-- Whether an image reference carries a tag: a colon stands after its last slash. -/
def IsTagged (reference : String) : Prop := ':' ∈ Text.afterLast '/' reference.toList

instance (reference : String) : Decidable (IsTagged reference) :=
  inferInstanceAs (Decidable (':' ∈ Text.afterLast '/' reference.toList))

/-! ### Where references are cut -/

/-- A reference without a colon is not split. -/
theorem splitReference?_of_not_mem (h : ':' ∉ r) : splitReference? r = none := by
  have hall : (r.reverse.takeWhile (· != ':')).reverse = r := Text.afterLast_of_not_mem h
  rw [splitReference?, hall]
  simp

/-- A reference is split at its last colon, unless a slash comes after it. -/
theorem splitReference?_cut (h : ':' ∉ last) :
    splitReference? (front ++ ':' :: last) = if '/' ∈ last then none else some (front, last) := by
  have hlast : ((front ++ ':' :: last).reverse.takeWhile (· != ':')).reverse = last :=
    Text.afterLast_append_cons h
  have hlength : (front ++ ':' :: last).length = front.length + 1 + last.length := by
    simp
    omega
  have hfront : (front ++ ':' :: last).length - last.length - 1 = front.length := by omega
  have hshorter : last.length ≠ (front ++ ':' :: last).length := by omega
  simp only [splitReference?, hlast, hfront, List.take_left, hshorter, decide_false, Bool.false_or]
  simp

/-- A reference is cut at its last colon, unless a slash follows. -/
theorem splitReference?_eq_some_iff :
    splitReference? r = some (name, tag) ↔ r = name ++ ':' :: tag ∧ ':' ∉ tag ∧ '/' ∉ tag := by
  constructor
  · intro h
    -- It is cut at the last colon, if it has one.
    by_cases hcolon : ':' ∈ r
    · obtain ⟨front, last, rfl, hlast⟩ := Text.exists_cut hcolon
      rw [splitReference?_cut hlast] at h
      split at h
      · cases h
      · cases h
        exact ⟨rfl, hlast, ‹_›⟩
    · rw [splitReference?_of_not_mem hcolon] at h
      cases h
  · rintro ⟨rfl, hcolon, hslash⟩
    rw [splitReference?_cut hcolon, if_neg hslash]

/-- What stands after the last slash of a reference that is cut. -/
theorem afterLast_slash_cut (h : '/' ∉ tag) :
    Text.afterLast '/' (name ++ ':' :: tag) = Text.afterLast '/' name ++ ':' :: tag :=
  Text.afterLast_append (by simpa using h)

/-- The references that are cut are those that carry a tag. -/
theorem isTagged_iff {reference : String} :
    IsTagged reference ↔ ∃ name tag, splitReference? reference.toList = some (name, tag) := by
  simp only [splitReference?_eq_some_iff]
  constructor
  · intro h
    -- The colon is in the part after the last slash, so the last one is, and no slash follows it.
    obtain ⟨front, hfront⟩ := Text.exists_append_afterLast '/' reference.toList
    obtain ⟨before, tag, hcut, hcolon⟩ := Text.exists_cut h
    refine ⟨front ++ before, tag, ?_, hcolon, ?_⟩
    · rw [List.append_assoc, ← hcut]
      exact hfront
    · intro hslash
      have hmem : '/' ∈ Text.afterLast '/' reference.toList := by
        rw [hcut]
        simp [hslash]
      exact Text.not_mem_afterLast hmem
  · rintro ⟨name, tag, hcut, -, hslash⟩
    rw [IsTagged, hcut, afterLast_slash_cut hslash]
    simp

/-- A reference without a tag is not split. -/
theorem splitReference?_of_not_isTagged {reference : String} (h : ¬ IsTagged reference) :
    splitReference? reference.toList = none := by
  cases hsplit : splitReference? reference.toList with
  | none => rfl
  | some cut => exact absurd (isTagged_iff.mpr ⟨cut.1, cut.2, hsplit⟩) h

end Spec

/-! ### The fields of a spec -/

namespace Datum

/-- To drop one key leaves the others. -/
theorem entry?_filter {name other : String} (h : name ≠ other) (fields : Fields) :
    entry? name (fields.filter fun e => !isKey other e.1) = entry? name fields := by
  induction fields with
  | nil => rfl
  | cons e rest ih =>
    by_cases hother : isKey other e.1 = true
    · -- A key is one text, so the entry that is dropped is not the one looked for.
      have hname : isKey name e.1 = false := by
        cases hkey : e.1 <;> simp_all [isKey]
        exact fun hn => h hn.symm
      rw [List.filter_cons_of_neg (by simp [hother]), ih, entry?, hname]
      rfl
    · rw [List.filter_cons_of_pos (by simp [hother]), entry?, entry?, ih]

end Datum

namespace Validation

open Checked (Yields yields_eq_iff yields_seq yields_fmap)

/-- The check of the image of a spec: a text that is not empty. -/
def imageCheck : Check String := fun d => (nonemptyString d).map Subtype.val

/-- Whether the fields of a spec are all there, and the spec has what they give. -/
structure SpecFields.Gives (f : SpecFields) (s : Spec) : Prop where
  image : f.field "image" imageCheck Spec.image = .valid s.image
  tag : f.field "tag" string Spec.tag = .valid s.tag
  name : f.field "name" (nullable string) Spec.name = .valid s.name
  entrypoint : f.field "entrypoint" (nullable string) Spec.entrypoint = .valid s.entrypoint
  cmd : f.field "cmd" (tuple string) Spec.cmd = .valid s.cmd
  env : f.field "env" (table string) Spec.env = .valid s.env
  labels : f.field "labels" (table string) Spec.labels = .valid s.labels
  exposedPorts :
    f.field "exposed_ports" (fun d => (tuple port d).map distinctPorts) Spec.exposedPorts =
    .valid s.exposedPorts
  copyTo : f.field "copy_to" (tuple payload) Spec.copyTo = .valid s.copyTo
  mounts : f.field "mounts" (tuple mount) Spec.mounts = .valid s.mounts
  healthcheck : f.field "healthcheck" (nullable healthcheck) Spec.healthcheck = .valid s.healthcheck
  waitFor : f.field "wait_for" (tuple condition) Spec.waitFor = .valid s.waitFor
  execBeforeReady : f.field "exec_before_ready" (tuple source) Spec.execBeforeReady =
    .valid s.execBeforeReady
  execAfterStart : f.field "exec_after_start" (tuple source) Spec.execAfterStart =
    .valid s.execAfterStart
  startupTimeout : f.field "startup_timeout" (nullable positiveNumber) Spec.startupTimeout =
    .valid s.startupTimeout

/-- A spec is valid if its fields give it. -/
theorem specFrom_eq_valid {f : SpecFields} {s : Spec} : specFrom f = .valid s ↔ f.Gives s := by
  simp only [← yields_eq_iff, specFrom, yields_seq, yields_fmap]
  constructor
  · rintro
      ⟨image, himage, tag, htag, name, hname, entrypoint, hentrypoint, cmd, hcmd, env, henv, labels,
      hlabels, ports, hports, copyTo, hcopy, mounts, hmounts, check, hcheck, waitFor, hwait, before,
      hbefore, after, hafter, timeout, htimeout, rfl⟩
    exact ⟨himage, htag, hname, hentrypoint, hcmd, henv, hlabels, hports, hcopy, hmounts, hcheck,
      hwait,
      hbefore, hafter, htimeout⟩
  · intro h
    exact ⟨_, h.image, _, h.tag, _, h.name, _, h.entrypoint, _, h.cmd, _, h.env, _, h.labels,
      _, h.exposedPorts, _, h.copyTo, _, h.mounts, _, h.healthcheck, _, h.waitFor, _,
      h.execBeforeReady,
      _, h.execAfterStart, _, h.startupTimeout, rfl⟩

/-- Two ways to find the fields of a spec agree, but for the image and the tag. -/
def SpecFields.Agrees (f g : SpecFields) : Prop :=
  ∀ {α : Type} (name : String) (check : Check α) (get : Spec → α), name ≠ "image" → name ≠ "tag" →
    g.field name check get = f.field name check get

/-- A spec whose other fields are known is valid iff its image is. -/
theorem specFrom_of_agrees {f g : SpecFields} {s : Spec} {tag : String} (h : specFrom f = .valid s)
    (hfg : f.Agrees g) (htag : g.field "tag" string Spec.tag = .valid tag) :
    specFrom g = (g.field "image" imageCheck Spec.image).map
      fun image => { s with image := image, tag := tag } := by
  have hs := specFrom_eq_valid.mp h
  unfold imageCheck
  -- Field by field: each of these has the value that it had.
  rw [specFrom, htag,
    (hfg "name" _ _ (by decide) (by decide)).trans hs.name,
    (hfg "entrypoint" _ _ (by decide) (by decide)).trans hs.entrypoint,
    (hfg "cmd" _ _ (by decide) (by decide)).trans hs.cmd,
    (hfg "env" _ _ (by decide) (by decide)).trans hs.env,
    (hfg "labels" _ _ (by decide) (by decide)).trans hs.labels,
    (hfg "exposed_ports" _ _ (by decide) (by decide)).trans hs.exposedPorts,
    (hfg "copy_to" _ _ (by decide) (by decide)).trans hs.copyTo,
    (hfg "mounts" _ _ (by decide) (by decide)).trans hs.mounts,
    (hfg "healthcheck" _ _ (by decide) (by decide)).trans hs.healthcheck,
    (hfg "wait_for" _ _ (by decide) (by decide)).trans hs.waitFor,
    (hfg "exec_before_ready" _ _ (by decide) (by decide)).trans hs.execBeforeReady,
    (hfg "exec_after_start" _ _ (by decide) (by decide)).trans hs.execAfterStart,
    (hfg "startup_timeout" _ _ (by decide) (by decide)).trans hs.startupTimeout]
  cases g.field "image" (fun d => (nonemptyString d).map Subtype.val) Spec.image <;> rfl

/-! ### Specs of data -/

/-- The fields of a spec as they are found in data. -/
def dataFields (fields : Fields) : SpecFields :=
  ⟨fun name check get =>
    if name = "image" then required name check fields
    else optional name (get (Spec.ofImage "" Spec.defaultTag)) check fields⟩

/-- Data that agree on all other keys have fields that agree. -/
theorem dataFields_agrees {xs ys : Fields}
    (h : ∀ name, name ≠ "image" → name ≠ "tag" → Datum.entry? name ys = Datum.entry? name xs) :
    (dataFields xs).Agrees (dataFields ys) := by
  intro α name check get himage htag
  simp only [dataFields, if_neg himage, optional, h name himage htag]

/-- Splitting an image changes the image and the tag only. -/
theorem entry?_splitImage (fields : Fields) {name : String} (himage : name ≠ "image")
    (htag : name ≠ "tag") : Datum.entry? name (splitImage fields) = Datum.entry? name fields := by
  unfold splitImage
  split
  · split
    · rw [List.cons_append, List.cons_append, Datum.entry?, Datum.entry?, List.nil_append,
        Datum.entry?_filter himage]
      simp [Datum.isKey, himage.symm, htag.symm]
    · rfl
  · rfl

/-- An image is any text but the empty one. -/
theorem image_text (s : String) :
    (imageCheck (.text s)).under (.key "image") =
      if s = "" then .invalid [⟨.stringTooShort 1, [.key "image"]⟩] else .valid s := by
  rw [imageCheck, nonemptyString, string_text, Checked.andThen]
  by_cases h : s = ""
  · rw [dif_neg (fun hne => hne h), if_pos h]
    rfl
  · rw [dif_pos h, if_neg h]
    rfl

end Validation

namespace Spec

/-- The image and the tag that a reference stands for if no tag is given. -/
def partsOf (reference : String) : String × String :=
  match splitReference? reference.toList with
  | some (name, tag) => (String.ofList name, String.ofList tag)
  | none => (reference, defaultTag)

section
variable {fields : Fields} {reference : String}

/-- The image is the first part of the reference. -/
theorem image_of_reference (htag : Datum.entry? "tag" fields = none)
    (himage : Datum.entry? "image" fields = some (.text reference)) :
    Datum.entry? "image" (splitImage fields) = some (.text (partsOf reference).1) := by
  unfold splitImage partsOf
  rw [htag, himage]
  cases hsplit : splitReference? reference.toList with
  | none => simpa only [hsplit] using himage
  | some cut => simp only [hsplit]; rfl

/-- The tag is the second part of the reference. -/
theorem tag_of_reference (htag : Datum.entry? "tag" fields = none)
    (himage : Datum.entry? "image" fields = some (.text reference)) :
    optional "tag" defaultTag string (splitImage fields) = .valid (partsOf reference).2 := by
  unfold splitImage partsOf
  rw [htag, himage]
  cases hsplit : splitReference? reference.toList with
  | none => simp only [hsplit, Validation.optional, htag]
  | some cut =>
    simp only [hsplit]
    exact (optional_of_entry rfl).trans (congrArg _ (string_text _))

end

/-- Data of a spec that gives an image reference, beside its other fields. -/
def referring (rest : Fields) (reference : String) : Datum :=
  .mapping ((.text "image", .text reference) :: rest)

section
variable {rest : Fields} {known : String} {base : Spec}

/-- A spec without a tag has the parts of its reference, if its other fields are sound. -/
theorem spec_referring (htag : Datum.entry? "tag" rest = none)
    (hbase : Validation.spec (referring rest known) = .valid base) (reference : String) :
    Validation.spec (referring rest reference) =
      if (partsOf reference).1 = "" then .invalid [⟨.stringTooShort 1, [.key "image"]⟩]
      else .valid { base with image := (partsOf reference).1, tag := (partsOf reference).2 } := by
  -- The references differ only in the image and in the tag.
  have hagrees : (dataFields (splitImage ((.text "image", .text known) :: rest))).Agrees
      (dataFields (splitImage ((.text "image", .text reference) :: rest))) := by
    refine dataFields_agrees fun name himage htag => ?_
    rw [entry?_splitImage _ himage htag, entry?_splitImage _ himage htag]
    simp [Datum.entry?, Datum.isKey, himage.symm]
  have hnone : Datum.entry? "tag" ((.text "image", .text reference) :: rest) = none := htag
  have himage : required "image" imageCheck
      (splitImage ((.text "image", .text reference) :: rest)) =
        if (partsOf reference).1 = "" then .invalid [⟨.stringTooShort 1, [.key "image"]⟩]
        else .valid (partsOf reference).1 := by
    rw [required_of_entry (image_of_reference hnone rfl), image_text]
  show specFrom (dataFields (splitImage ((.text "image", .text reference) :: rest))) = _
  rw [specFrom_of_agrees hbase hagrees (tag_of_reference hnone rfl)]
  show (required "image" imageCheck _).map _ = _
  rw [himage]
  split <;> rfl

end

/-! ### References without a tag beside them -/

section
variable {reference name tag : String}

/-- A reference without a tag has the default one. -/
theorem partsOf_of_not_isTagged (h : ¬ IsTagged reference) :
    partsOf reference = (reference, defaultTag) := by
  rw [partsOf, splitReference?_of_not_isTagged h]

/-- A reference that is put together from an image and a tag has these parts. -/
theorem partsOf_append (hcolon : ':' ∉ tag.toList) (hslash : '/' ∉ tag.toList) :
    partsOf (name ++ ":" ++ tag) = (name, tag) := by
  have hcut : (name ++ ":" ++ tag).toList = name.toList ++ ':' :: tag.toList := by simp
  rw [partsOf, hcut, splitReference?_eq_some_iff.mpr ⟨rfl, hcolon, hslash⟩]
  simp

/-- A tagged reference is put together from an image and a tag. -/
theorem IsTagged.exists_append (h : IsTagged reference) :
    ∃ name tag : String, reference = name ++ ":" ++ tag ∧ ':' ∉ tag.toList ∧ '/' ∉ tag.toList := by
  obtain ⟨name, tag, hsplit⟩ := isTagged_iff.mp h
  obtain ⟨hcut, hcolon, hslash⟩ := splitReference?_eq_some_iff.mp hsplit
  refine ⟨String.ofList name, String.ofList tag, ?_, by simpa using hcolon, by simpa using hslash⟩
  rw [← String.toList_inj, hcut]
  simp

/-- The tag of a reference has neither a colon nor a slash. -/
theorem tag_of_partsOf (reference : String) :
    ':' ∉ (partsOf reference).2.toList ∧ '/' ∉ (partsOf reference).2.toList := by
  by_cases h : IsTagged reference
  · obtain ⟨name, tag, rfl, hcolon, hslash⟩ := h.exists_append
    rw [partsOf_append hcolon hslash]
    exact ⟨hcolon, hslash⟩
  · rw [partsOf_of_not_isTagged h]
    show ':' ∉ defaultTag.toList ∧ '/' ∉ defaultTag.toList
    decide

end

/-- Take data of a spec that gives an image reference and no tag, and let its other fields be sound.
A reference that is not tagged is the image, and the tag is the default. A tagged one is cut at its
last colon: what stands before it is the image, which must not be empty, and what stands after it is
the tag. So the reference of the spec is the one that was given, or that with the default tag; no
slash comes after the colon that separates its tag; and the same data with the reference of the spec
gives the same spec. -/
theorem splits_references {rest : Fields} {known : String} {base : Spec}
    (htag : Datum.entry? "tag" rest = none)
    (hbase : Validation.spec (referring rest known) = .valid base) (reference : String)
    (hne : reference ≠ "") :
    (¬ IsTagged reference →
      Validation.spec (referring rest reference) =
        .valid { base with image := reference, tag := "latest" }) ∧
    (IsTagged reference →
      ∃ name tag : String, reference = name ++ ":" ++ tag ∧ ':' ∉ tag.toList ∧
        (name = "" → Validation.spec (referring rest reference) =
          .invalid [⟨.stringTooShort 1, [.key "image"]⟩]) ∧
        (name ≠ "" → Validation.spec (referring rest reference) =
          .valid { base with image := name, tag := tag })) ∧
    ∀ s, Validation.spec (referring rest reference) = .valid s →
      (IsTagged reference → s.imageRef = reference) ∧
      (¬ IsTagged reference → s.imageRef = reference ++ ":latest") ∧
      '/' ∉ s.tag.toList ∧
      Validation.spec (referring rest s.imageRef) = .valid s := by
  have hspec := spec_referring htag hbase
  refine ⟨fun h => ?_, fun h => ?_, fun s hs => ?_⟩
  · rw [hspec, partsOf_of_not_isTagged h, if_neg hne]
    rfl
  · obtain ⟨name, tag, rfl, hcolon, hslash⟩ := h.exists_append
    refine ⟨name, tag, rfl, hcolon, fun hname => ?_, fun hname => ?_⟩
    · rw [hspec, partsOf_append hcolon hslash, if_pos hname]
    · rw [hspec, partsOf_append hcolon hslash, if_neg hname]
  · obtain ⟨hcolon, hslash⟩ := tag_of_partsOf reference
    rw [hspec] at hs
    split at hs
    · cases hs
    · cases hs
      -- With a tag the parts give the reference back, and without one the default tag is added.
      refine ⟨fun h => ?_, fun h => ?_, hslash, ?_⟩
      · obtain ⟨name, tag, rfl, hcolon, hslash⟩ := h.exists_append
        rw [imageRef, partsOf_append hcolon hslash]
      · rw [imageRef, partsOf_of_not_isTagged h]
        exact String.append_assoc
      · rw [hspec, imageRef, partsOf_append hcolon hslash, if_neg ‹_›]

/-- A reference into a registry with a port, beside a port that is exposed. -/
theorem splits_references_of_registry :
    let rest : Fields := [(.text "exposed_ports", .list [.int 80])]
    Datum.entry? "tag" rest = none ∧
    (∃ base, Validation.spec (referring rest "app") = .valid base) ∧
      "localhost:5000/team/app:1.2" ≠ "" ∧ IsTagged "localhost:5000/team/app:1.2" ∧
      ∃ s, Validation.spec (referring rest "localhost:5000/team/app:1.2") = .valid s ∧
        s.image = "localhost:5000/team/app" ∧ s.tag = "1.2" ∧
        s.imageRef = "localhost:5000/team/app:1.2" := by
  intro rest
  -- The colon before the port of the registry is not the last one.
  have htagged : IsTagged "localhost:5000/team/app:1.2" := by decide
  have htag : Datum.entry? "tag" rest = none := rfl
  obtain ⟨base, hbase⟩ : ∃ base, Validation.spec (referring rest "app") = .valid base := ⟨_, rfl⟩
  obtain ⟨-, -, hall⟩ := splits_references htag hbase "localhost:5000/team/app:1.2" (by decide)
  obtain ⟨href, -, -, -⟩ := hall _ rfl
  exact ⟨rfl, ⟨_, rfl⟩, by decide, htagged, _, rfl, rfl, rfl, href htagged⟩

end Spec
end Slipway
