import Slipway.Dump
import Slipway.Validation.Record

/-!
# `Slipway.Proofs.Validation.Restoring`: checks that give dumped values back

A check takes data in many forms, and a dump writes a value in one of them. A check is `Lossless`
for a dump if it gives every value of the type back from its dump. Some checks only ever give values
of a certain form, such as paths that start with a slash, and refuse the dumps of others: then it
`Restores` the values that it gives at all. Both notions go from a check to the checks of lists, of
tables and of what may be null.

For a record the checks of its fields have to be taken apart and put together again. `Yields` says
that a check succeeds with a value of which something is true. It goes through the applicative
structure of a record check (`yields_seq`), so that `x.Yields (· = a)` becomes one fact for each
field, in the order of their declaration. A field of the dump is found under its name, and
`Restores.optional` and its like restore it. -/

set_option autoImplicit false

namespace Slipway

/-! ### Results of checks -/

namespace Checked

variable {α β : Type} {b : β}

/-- A check succeeds, with a value of which something is true. -/
def Yields (x : Checked α) (P : α → Prop) : Prop := ∃ a, x = .valid a ∧ P a

/-- To yield one value is to be valid with it. -/
theorem yields_eq_iff {x : Checked α} {a : α} : x.Yields (· = a) ↔ x = .valid a := by
  simp [Yields]

section
variable {P : β → Prop}

/-- What a mapped check yields is the image of what the check does. -/
theorem yields_map {f : α → β} {x : Checked α} :
    (x.map f).Yields P ↔ x.Yields fun a => P (f a) := by
  cases x <;> simp [Yields, map]

/-- The same in applicative form. -/
theorem yields_fmap {f : α → β} {x : Checked α} : (f <$> x).Yields P ↔ x.Yields fun a => P (f a) :=
  yields_map

/-- Two checks yield together what each of them does. -/
theorem yields_seq {f : Checked (α → β)} {x : Checked α} :
    (f <*> x).Yields P ↔ f.Yields fun g => x.Yields fun a => P (g a) := by
  show (apply f x).Yields P ↔ _
  cases f <;> cases x <;> simp [Yields, apply]

/-- A check that goes on yields what its continuation does. -/
theorem yields_andThen {f : α → Checked β} {x : Checked α} :
    (x.andThen f).Yields P ↔ x.Yields fun a => (f a).Yields P := by
  cases x <;> simp [Yields, andThen]

end

/-- A mapped check is valid with the image of a valid value. -/
theorem map_eq_valid {f : α → β} {x : Checked α} :
    x.map f = .valid b ↔ ∃ a, x = .valid a ∧ f a = b := by
  rw [← yields_eq_iff, yields_map, Yields]

/-- A check that goes on is valid if both are. -/
theorem andThen_eq_valid {f : α → Checked β} {x : Checked α} :
    x.andThen f = .valid b ↔ ∃ a, x = .valid a ∧ f a = .valid b := by
  simp only [← yields_eq_iff, yields_andThen]
  simp [Yields]

/-- The place of the issues does not matter for what is valid. -/
theorem under_eq_valid {p : Place} {x : Checked α} {a : α} :
    x.under p = .valid a ↔ x = .valid a := by
  cases x <;> simp [under]

/-- Checks of items succeed together iff each of them does. -/
theorem all_eq_valid {xs : List (Checked α)} {as : List α} :
    all xs = .valid as ↔ xs = as.map .valid := by
  induction xs generalizing as with
  | nil => cases as <;> simp [all]
  | cons x rest ih =>
    cases as with
    | nil => cases x <;> cases h : all rest <;> simp [all, map, apply, h]
    | cons a as =>
      rw [List.map_cons, List.cons.injEq, ← ih]
      cases x <;> cases h : all rest <;> simp [all, map, apply, h]

/-- The values of valid checks are all there. -/
theorem values_map_valid (as : List α) : (as.map .valid).filterMap value? = as := by
  induction as with
  | nil => rfl
  | cons a as ih => simp [value?, ih]

end Checked

namespace Validation

open Checked (under_eq_valid map_eq_valid andThen_eq_valid all_eq_valid)

variable {α : Type} {check : Check α} {dump : α → Datum}

/-- A check gives every value back from its dump. -/
def Lossless (check : Check α) (dump : α → Datum) : Prop := ∀ a, check (dump a) = .valid a

/-- A check gives back from its dump every value that it gives at all. -/
def Restores (check : Check α) (dump : α → Datum) : Prop :=
  ∀ d a, check d = .valid a → check (dump a) = .valid a

/-- What is read back is restored. -/
theorem Lossless.restores (h : Lossless check dump) : Restores check dump := fun _ a _ => h a

/-! ### Scalars -/

/-- A text is a text. -/
theorem string_text (s : String) : string (.text s) = .valid s := by
  simp [string, chars?, Checked.map]

/-- Texts are read back. -/
theorem string_lossless : Lossless string .text := string_text

/-- Bytes are read back. -/
theorem bytes_lossless : Lossless bytes .bytes := fun _ => rfl

/-- Integers are read back. -/
theorem integer_lossless : Lossless integer .int := fun _ => rfl

/-- Numbers are read back. -/
theorem number_lossless : Lossless number .float := fun _ => rfl

/-- Truth values are read back. -/
theorem boolean_lossless : Lossless boolean .bool := fun _ => rfl

/-- Timestamps are read back. -/
theorem timestamp_lossless : Lossless timestamp .timestamp := fun _ => rfl

/-- Mappings are read back as they are. -/
theorem anyMapping_lossless : Lossless anyMapping .mapping := fun _ => rfl

/-- Any datum is what it is. -/
theorem any_lossless : Lossless .valid (fun d : Datum => d) := fun _ => rfl

/-- Texts that are not empty are read back. -/
theorem nonemptyString_lossless : Lossless nonemptyString fun s => .text s.1 := by
  intro s
  rw [nonemptyString, string_text, Checked.andThen, dif_pos s.2]

/-- Integers from a least one on are restored. -/
theorem integerFrom_restores (least : Int) : Restores (integerFrom least) .int := by
  intro d n hd
  obtain ⟨m, -, hm⟩ := andThen_eq_valid.mp hd
  split at hm
  · cases hm
    exact if_pos ‹_›
  · cases hm

/-- Natural numbers are read back. -/
theorem natural_lossless : Lossless natural fun n => .int n := by
  intro n
  have hn : integerFrom 0 (.int n) = .valid n := by
    rw [integerFrom, integer, Checked.andThen, if_pos (Int.natCast_nonneg n)]
  rw [natural, hn, Checked.map, Int.toNat_natCast]

/-- Positive numbers are restored. -/
theorem positiveNumber_restores : Restores positiveNumber .float := by
  intro d x hd
  obtain ⟨y, -, hy⟩ := andThen_eq_valid.mp hd
  split at hy
  · cases hy
    exact if_pos ‹_›
  · cases hy

/-- A named value is found under its name if no other that is listed has that name. -/
theorem named_lossless {all : List α} {name : α → String}
    (h : ∀ a, all.find? (name · == name a) = some a) :
    Lossless (named all name) fun a => .text (name a) := by
  intro a
  simp only [named, h a]

/-! ### Values that may be null -/

/-- What is not `null` is checked. -/
theorem nullable_of_ne_null {d : Datum} (h : d ≠ .null) :
    nullable check d = (check d).map some := by
  cases d with
  | null => exact absurd rfl h
  | _ => rfl

/-- Values that may be missing are read back, if none is dumped as `null`. -/
theorem Lossless.nullable (h : Lossless check dump) (hdump : ∀ a, dump a ≠ .null) :
    Lossless (nullable check) (Datum.ofOption dump) := by
  intro a
  cases a with
  | none => rfl
  | some a => rw [Datum.ofOption, nullable_of_ne_null (hdump a), h a, Checked.map]

/-- Values that may be missing are restored, if none is dumped as `null`. -/
theorem Restores.nullable (h : Restores check dump) (hdump : ∀ a, dump a ≠ .null) :
    Restores (nullable check) (Datum.ofOption dump) := by
  intro d a hd
  cases a with
  | none => rfl
  | some a =>
    -- Only null is read as nothing.
    have hne : d ≠ .null := by
      rintro rfl
      cases hd
    rw [nullable_of_ne_null hne] at hd
    obtain ⟨a', ha, hsome⟩ := map_eq_valid.mp hd
    cases hsome
    rw [Datum.ofOption, nullable_of_ne_null (hdump a), h d a ha, Checked.map]

/-! ### Lists -/

section
variable {xs : List α} {items : List Datum} {i : Int}

/-- The items of a list that is valid come from data that is. -/
theorem valid_of_mem (h : itemChecks check i items = xs.map .valid) :
    ∀ x ∈ xs, ∃ d, check d = .valid x := by
  -- By the items, in step with their values.
  induction items generalizing i xs with
  | nil =>
    rw [itemChecks, eq_comm, List.map_eq_nil_iff] at h
    simp [h]
  | cons d rest ih =>
    cases xs with
    | nil => simp
    | cons x xs =>
      rw [itemChecks, List.map_cons, List.cons.injEq, under_eq_valid] at h
      intro y hy
      rcases List.mem_cons.mp hy with rfl | hy
      · exact ⟨d, h.1⟩
      · exact ih h.2 y hy

/-- The items of a dumped list are valid. -/
theorem itemChecks_dump (h : ∀ x ∈ xs, check (dump x) = .valid x) :
    itemChecks check i (xs.map dump) = xs.map .valid := by
  induction xs generalizing i with
  | nil => rfl
  | cons x xs ih =>
    rw [List.map_cons, itemChecks, h x List.mem_cons_self, Checked.under,
      ih fun y hy => h y (List.mem_cons_of_mem x hy), List.map_cons]

/-- A list is valid if it is one and its items are valid. -/
theorem list_eq_valid {d : Datum} :
    list check d = .valid xs ↔ ∃ items, items? d = some items ∧
    itemChecks check 0 items = xs.map .valid := by
  unfold list
  cases items? d <;> simp [Checked.fail, all_eq_valid]

/-- Every value of a valid list comes from a valid item. -/
theorem exists_of_mem_list {d : Datum} (h : list check d = .valid xs) :
    ∀ x ∈ xs, ∃ d, check d = .valid x := by
  obtain ⟨items, -, hitems⟩ := list_eq_valid.mp h
  exact valid_of_mem hitems

/-- A tuple is valid if it is so as a list. -/
theorem tuple_eq_valid {d : Datum} : tuple check d = .valid xs ↔ list check d = .valid xs := by
  unfold tuple list
  cases items? d <;> simp [Checked.fail]

/-- A tuple of a least length is a tuple, and as long. -/
theorem tupleFrom_eq_valid {least : Nat} {d : Datum} :
    tupleFrom least check d = .valid xs ↔ tuple check d = .valid xs ∧ least ≤ xs.length := by
  rw [tuple_eq_valid, list_eq_valid]
  unfold tupleFrom
  cases items? d with
  | none => simp [Checked.fail]
  | some items =>
    simp only [Option.some.injEq, exists_eq_left', ← all_eq_valid]
    -- The items that are counted are the valid ones, and in a valid tuple these are all.
    cases hall : Checked.all (itemChecks check 0 items) with
    | invalid issues => split <;> simp
    | valid ys =>
      have hcount : (itemChecks check 0 items).filterMap Checked.value? = ys := by
        rw [all_eq_valid.mp hall, Checked.values_map_valid]
      rw [hcount, Checked.valid.injEq]
      split
      · rw [Checked.valid.injEq, iff_self_and]
        rintro rfl
        assumption
      · constructor
        · intro h
          cases h
        · rintro ⟨rfl, h⟩
          contradiction

/-- A list with a least length is valid if it is long enough. -/
theorem listFrom_eq_valid {least : Nat} {d : Datum} :
    listFrom least check d = .valid xs ↔ list check d = .valid xs ∧ least ≤ xs.length := by
  unfold listFrom
  rw [andThen_eq_valid]
  constructor
  · rintro ⟨ys, hys, h⟩
    split at h
    · cases h
      exact ⟨hys, ‹_›⟩
    · cases h
  · rintro ⟨h, hlength⟩
    exact ⟨xs, h, if_pos hlength⟩

end

/-- A list is read back if its items are. -/
theorem list_dump {xs : List α} (h : ∀ x ∈ xs, check (dump x) = .valid x) :
    list check (Datum.ofList dump xs) = .valid xs :=
  list_eq_valid.mpr ⟨_, rfl, itemChecks_dump h⟩

/-- Lists are read back if their items are. -/
theorem Lossless.list (h : Lossless check dump) : Lossless (list check) (Datum.ofList dump) :=
  fun _ => list_dump fun x _ => h x

/-- So are tuples. -/
theorem Lossless.tuple (h : Lossless check dump) : Lossless (tuple check) (Datum.ofList dump) :=
  fun xs => tuple_eq_valid.mpr (h.list xs)

/-- Lists are restored if their items are. -/
theorem Restores.list (h : Restores check dump) : Restores (list check) (Datum.ofList dump) := by
  intro d xs hd
  refine list_dump fun x hx => ?_
  obtain ⟨d', hd'⟩ := exists_of_mem_list hd x hx
  exact h d' x hd'

/-- So are tuples. -/
theorem Restores.tuple (h : Restores check dump) : Restores (tuple check) (Datum.ofList dump) :=
  fun d xs hd => tuple_eq_valid.mpr (h.list d xs (tuple_eq_valid.mp hd))

/-- A least length is kept, since no item is lost. -/
theorem Restores.tupleFrom (least : Nat) (h : Restores check dump) :
    Restores (tupleFrom least check) (Datum.ofList dump) := by
  intro d xs hd
  obtain ⟨htuple, hlength⟩ := tupleFrom_eq_valid.mp hd
  exact tupleFrom_eq_valid.mpr ⟨h.tuple d xs htuple, hlength⟩

/-- So are lists with a least length. -/
theorem Restores.listFrom (least : Nat) (h : Restores check dump) :
    Restores (listFrom least check) (Datum.ofList dump) := by
  intro d xs hd
  obtain ⟨hlist, hlength⟩ := listFrom_eq_valid.mp hd
  exact listFrom_eq_valid.mpr ⟨h.list d xs hlist, hlength⟩

/-! ### Tables -/

/-- The keys of a table. -/
def keys (t : List (String × α)) : List String := t.map Prod.fst

/-- A key that is put is there, and so are the others. -/
theorem mem_keys_put {key : String} {value : α} {t : List (String × α)} {k : String} :
    k ∈ keys (put key value t) ↔ k = key ∨ k ∈ keys t := by
  induction t with
  | nil => simp [put, keys]
  | cons e rest ih =>
    unfold keys at ih
    by_cases hkey : e.1 = key
    · simp [put, keys, hkey]
    · simp only [put, if_neg hkey, keys, List.map_cons, List.mem_cons, ih]
      exact or_left_comm

/-- No key is there twice. -/
theorem nodup_keys_put (key : String) (value : α) {t : List (String × α)} (h : (keys t).Nodup) :
    (keys (put key value t)).Nodup := by
  induction t with
  | nil => simp [put, keys]
  | cons e rest ih =>
    have hrest : e.1 ∉ keys rest ∧ (keys rest).Nodup := List.nodup_cons.mp h
    -- The key is the first, or it is put into the rest.
    by_cases hkey : e.1 = key
    · subst hkey
      rw [put, if_pos rfl]
      exact List.nodup_cons.mpr hrest
    · rw [put, if_neg hkey]
      refine List.nodup_cons.mpr ⟨?_, ih hrest.2⟩
      show e.1 ∉ keys (put key value rest)
      rw [mem_keys_put, not_or]
      exact ⟨hkey, hrest.1⟩

/-- A new key comes last. -/
theorem put_of_not_mem {key : String} {t : List (String × α)} (value : α) (h : key ∉ keys t) :
    put key value t = t ++ [(key, value)] := by
  induction t with
  | nil => rfl
  | cons e rest ih =>
    rw [keys, List.map_cons, List.mem_cons, not_or] at h
    rw [put, if_neg (Ne.symm h.1), ih h.2, List.cons_append]

/-- A table has every key once. -/
theorem nodup_keys_collect (entries : List (String × α)) : (keys (collect entries)).Nodup := by
  have hfold : ∀ t : List (String × α), (keys t).Nodup →
      (keys (entries.foldl (fun t e => put e.1 e.2 t) t)).Nodup := by
    induction entries with
    | nil => exact fun t h => h
    | cons e rest ih => exact fun t h => ih _ (nodup_keys_put e.1 e.2 h)
  exact hfold [] List.nodup_nil

/-- Entries with distinct keys are a table already. -/
theorem collect_eq_self {t : List (String × α)} (h : (keys t).Nodup) : collect t = t := by
  -- By the entries still to come: each key is new, so each comes last.
  have hfold : ∀ s : List (String × α), (keys (s ++ t)).Nodup →
      t.foldl (fun t e => put e.1 e.2 t) s = s ++ t := by
    induction t with
    | nil => simp
    | cons e rest ih =>
      intro s hs
      have hkey : e.1 ∉ keys s := by
        rw [keys, List.map_append, List.nodup_append] at hs
        exact fun hmem => hs.2.2 _ hmem _ (by simp) rfl
      have hlast : s ++ e :: rest = s ++ [e] ++ rest := by simp
      rw [List.foldl_cons, put_of_not_mem e.2 hkey, hlast]
      rw [hlast] at hs
      exact ih (List.nodup_cons.mp h).2 _ hs
  exact hfold [] h

/-- An entry is the one that was put, or it was there. -/
theorem mem_of_mem_put {key : String} {value : α} {t : List (String × α)} {e : String × α}
    (h : e ∈ put key value t) : e = (key, value) ∨ e ∈ t := by
  induction t with
  | nil => simpa [put] using h
  | cons e' rest ih =>
    unfold put at h
    -- The first entry is replaced, or the entry is put into the rest.
    split at h
    · rcases List.mem_cons.mp h with h | h
      · exact .inl h
      · exact .inr (List.mem_cons_of_mem _ h)
    · rcases List.mem_cons.mp h with rfl | h
      · exact .inr List.mem_cons_self
      · exact (ih h).imp id (List.mem_cons_of_mem _)

/-- What is collected comes from the entries. -/
theorem mem_of_mem_collect {entries : List (String × α)} {e : String × α}
    (h : e ∈ collect entries) :
    e ∈ entries := by
  -- By the entries, whatever has been collected before them.
  have hfold : ∀ t : List (String × α), e ∈ entries.foldl (fun t e => put e.1 e.2 t) t →
      e ∈ entries ∨ e ∈ t := by
    clear h
    induction entries with
    | nil => exact fun t h => .inr h
    | cons e' rest ih =>
      intro t h
      rcases ih _ h with h | h
      · exact .inl (List.mem_cons_of_mem _ h)
      · rcases mem_of_mem_put h with rfl | h
        · exact .inl List.mem_cons_self
        · exact .inr h
  exact (hfold [] h).resolve_right List.not_mem_nil

/-- An entry of a table comes from a key that is a text and data that is valid. -/
theorem valid_of_mem_entryChecks {entries : List (Datum × Datum)} {t : List (String × α)}
    (h : entryChecks check entries = t.map .valid) : ∀ e ∈ t, ∃ d, check d = .valid e.2 := by
  intro e he
  have hmem : .valid e ∈ entryChecks check entries := h ▸ List.mem_map_of_mem he
  obtain ⟨x, -, hx⟩ := List.mem_map.mp hmem
  -- The check of an entry is that of its key and that of its value, side by side.
  have hboth := Checked.yields_eq_iff.mpr hx
  rw [show ∀ (k : Checked String) (y : Checked α),
    Checked.apply (Checked.map Prod.mk k) y = Prod.mk <$> k <*> y from fun _ _ => rfl,
    Checked.yields_seq, Checked.yields_fmap] at hboth
  obtain ⟨key, -, value, hvalue, rfl⟩ := hboth
  exact ⟨x.2, under_eq_valid.mp hvalue⟩

/-- A table as a mapping. -/
def ofEntries (dump : α → Datum) (t : List (String × α)) : Datum :=
  .mapping (t.map fun e => (.text e.1, dump e.2))

/-- The entries of a dumped table are valid. -/
theorem entryChecks_dump {t : List (String × α)} (h : ∀ e ∈ t, check (dump e.2) = .valid e.2) :
    entryChecks check (t.map fun e => (.text e.1, dump e.2)) = t.map .valid := by
  rw [entryChecks, List.map_map, List.map_inj_left]
  intro e he
  have hkey : string (.text e.1) = .valid e.1 := string_text e.1
  simp only [Function.comp_apply, hkey, h e he]
  rfl

/-- A table is valid if its entries are, and it collects them. -/
theorem table_eq_valid {entries : List (Datum × Datum)} {t : List (String × α)} :
    table check (.mapping entries) = .valid t ↔
      ∃ t', entryChecks check entries = t'.map .valid ∧ collect t' = t := by
  rw [table, map_eq_valid]
  simp only [all_eq_valid]

/-- A table is read back if its keys are distinct and its values are read back. -/
theorem table_dump {t : List (String × α)} (hkeys : (keys t).Nodup)
    (h : ∀ e ∈ t, check (dump e.2) = .valid e.2) : table check (ofEntries dump t) = .valid t :=
  table_eq_valid.mpr ⟨t, entryChecks_dump h, collect_eq_self hkeys⟩

/-- Of a table that was checked the keys are distinct, so none is lost. -/
theorem Restores.table (h : Restores check dump) : Restores (table check) (ofEntries dump) := by
  intro d t hd
  cases d with
  | mapping entries =>
    obtain ⟨t, ht, rfl⟩ := table_eq_valid.mp hd
    refine table_dump (nodup_keys_collect t) fun e he => ?_
    obtain ⟨d, hd⟩ := valid_of_mem_entryChecks ht e (mem_of_mem_collect he)
    exact h d e.2 hd
  | _ => cases hd

/-! ### Records -/

section
variable {name other : String} {default v : α} {fields entries : Fields}

/-- A field that is there is checked. -/
theorem required_of_entry {d : Datum} (h : Datum.entry? name entries = some d) :
    required name check entries = (check d).under (.key name) := by
  rw [required, h]

/-- A field that may be missing is checked if it is there. -/
theorem optional_of_entry {d : Datum} (h : Datum.entry? name entries = some d) :
    optional name default check entries = (check d).under (.key name) := by
  rw [optional, h]

/-- What is required comes from a valid datum. -/
theorem exists_of_required (h : required name check fields = .valid v) :
    ∃ d, check d = .valid v := by
  unfold required at h
  split at h
  · exact ⟨_, under_eq_valid.mp h⟩
  · cases h

/-- What is required must be there. -/
theorem not_required_of_none (h : Datum.entry? name fields = none) :
    ¬ required name check fields = .valid v := by
  simp [required, h, Checked.fail, Checked.under]

/-- A value of a field comes from data, unless it is the default. -/
theorem exists_of_optional (h : optional name default check fields = .valid v) :
    v = default ∨ ∃ d, check d = .valid v := by
  unfold optional at h
  split at h
  · exact .inr ⟨_, under_eq_valid.mp h⟩
  · cases h
    exact .inl rfl

/-- A required field is read back. -/
theorem Lossless.required (h : Lossless check dump)
    (he : Datum.entry? name entries = some (dump v)) :
    required name check entries = .valid v := by
  rw [required_of_entry he, h, Checked.under]

/-- So is one that may be missing. -/
theorem Lossless.optional (h : Lossless check dump)
    (he : Datum.entry? name entries = some (dump v)) :
    optional name default check entries = .valid v := by
  rw [optional_of_entry he, h, Checked.under]

/-- A field of two names that is only there under the second. -/
theorem Lossless.requiredAs (h : Lossless check dump) (hname : Datum.entry? name entries = none)
    (he : Datum.entry? other entries = some (dump v)) :
    requiredAs name other check entries = .valid v := by
  rw [Validation.requiredAs, hname]
  simp only [he, h v, Checked.under]

/-- So is one under its other name. -/
theorem Lossless.optionalAs (h : Lossless check dump) (hname : Datum.entry? name entries = none)
    (he : Datum.entry? other entries = some (dump v)) :
    optionalAs name other default check entries = .valid v := by
  rw [Validation.optionalAs, hname]
  exact h.optional he

/-- A required field is restored. -/
theorem Restores.required (h : Restores check dump) (hv : required name check fields = .valid v)
    (he : Datum.entry? name entries = some (dump v)) : required name check entries = .valid v := by
  obtain ⟨d, hd⟩ := exists_of_required hv
  rw [required_of_entry he, h d v hd, Checked.under]

/-- A default has to be restored too. -/
theorem Restores.optional (h : Restores check dump)
    (hdefault : check (dump default) = .valid default)
    (hv : optional name default check fields = .valid v)
    (he : Datum.entry? name entries = some (dump v)) :
    optional name default check entries = .valid v := by
  rw [optional_of_entry he, under_eq_valid]
  rcases exists_of_optional hv with rfl | ⟨d, hd⟩
  · exact hdefault
  · exact h d v hd

end

/-- A record whose fields are all given back is given back. -/
theorem lossless_record {model : String} {fields : Fields → Checked α}
    (h : ∀ a, ∃ out, dump a = .mapping out ∧ (fields out).Yields (· = a)) :
    Lossless (record model fields) dump := by
  intro a
  obtain ⟨out, hout, hback⟩ := h a
  rw [hout]
  exact Checked.yields_eq_iff.mp hback

/-- A record that restores its fields restores itself. -/
theorem restores_record {model : String} {fields : Fields → Checked α}
    (h : ∀ entries a, (fields entries).Yields (· = a) →
      ∃ out, dump a = .mapping out ∧ (fields out).Yields (· = a)) :
    Restores (record model fields) dump := by
  intro d a hd
  unfold record at hd
  split at hd
  · obtain ⟨out, hout, hback⟩ := h _ a (Checked.yields_eq_iff.mpr hd)
    rw [hout]
    exact Checked.yields_eq_iff.mp hback
  · cases hd

/-! ### Records of one of several models -/

section
variable {alternatives : List (String × (Fields → Checked α))} {a : α}

/-- What is valid by its kind is valid as one of the alternatives. -/
theorem exists_of_tagged {d : Datum} (h : tagged alternatives d = .valid a) :
    ∃ entries, d = .mapping entries ∧ ∃ x ∈ alternatives, x.2 entries = .valid a := by
  cases d with
  | mapping entries =>
    refine ⟨entries, rfl, ?_⟩
    simp only [tagged] at h
    -- The kind must be there, a text, and the word of an alternative.
    cases hkind : Datum.entry? "kind" entries with
    | none => simp [hkind, Checked.fail] at h
    | some tag =>
      cases tag with
      | text word =>
        cases hx : alternatives.find? (·.1 == word) with
        | none => simp [hkind, hx, Checked.fail] at h
        | some x =>
          simp only [hkind, hx] at h
          exact ⟨x, List.mem_of_find?_eq_some hx, under_eq_valid.mp h⟩
      | _ => simp [hkind, Checked.fail] at h
  | _ => simp [tagged, Checked.fail] at h

/-- With the word of an alternative it is checked as that one. -/
theorem tagged_of_entry {word : String} {x : String × (Fields → Checked α)} {entries : Fields}
    (hkind : Datum.entry? "kind" entries = some (.text word))
    (hx : alternatives.find? (·.1 == word) = some x) :
    tagged alternatives (.mapping entries) = (x.2 entries).under (.key x.1) := by
  simp only [tagged, hkind, hx]

/-- Fields that are restored, in a record that says of which kind it is. -/
def RestoresAs (word : String) (fields : Fields → Checked α) (dump : α → Datum) : Prop :=
  ∀ entries a, fields entries = .valid a → ∃ out, dump a = .mapping out ∧
    Datum.entry? "kind" out = some (.text word) ∧ fields out = .valid a

/-- An alternative is restored as a record of its own. -/
theorem RestoresAs.record {word : String} {fields : Fields → Checked α} (model : String)
    (h : RestoresAs word fields dump) : Restores (record model fields) dump := by
  refine restores_record fun entries a hread => ?_
  obtain ⟨out, hout, -, hback⟩ := h entries a (Checked.yields_eq_iff.mp hread)
  exact ⟨out, hout, Checked.yields_eq_iff.mpr hback⟩

/-- A record of one of several models is restored if each model is, and is found under its own name.
-/
theorem restores_tagged (hfields : ∀ x ∈ alternatives, RestoresAs x.1 x.2 dump)
    (hfind : ∀ x ∈ alternatives, alternatives.find? (·.1 == x.1) = some x) :
    Restores (tagged alternatives) dump := by
  intro d a hd
  obtain ⟨entries, -, x, hx, ha⟩ := exists_of_tagged hd
  obtain ⟨out, hout, hkind, hback⟩ := hfields x hx entries a ha
  rw [hout, tagged_of_entry hkind (hfind x hx), hback, Checked.under]

end

end Validation
end Slipway
