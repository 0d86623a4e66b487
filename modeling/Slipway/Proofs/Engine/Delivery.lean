import Slipway.Proofs.Archive
import Slipway.Proofs.Engine.Creation
import Slipway.Proofs.Text.Cut
import Slipway.Proofs.Validation.Condition

/-!
# `Slipway.Proofs.Engine.Delivery`: where a payload lands

A payload is handed over as a directory and an archive of one file, and whoever unpacks the archive
there has a file at the directory joined with the name that he finds. `Lands` says that this is the
file that was meant. `squeeze` takes runs of slashes together, since a path with more slashes is no
other path.

The directory and the name are cut from the target at its last slash (`exists_slashes`). They make
up the target again (`squeeze_directory_name`), but the name may be empty, for a target that ends
with a slash, and of a name that stands in the header of the archive only what comes before a zero
is found. `copy_lands_iff` says that nothing else goes wrong: the check of a payload lets only
absolute targets pass, so there is always a slash to cut at. -/

set_option autoImplicit false

namespace Slipway

open Slipway.Text.Utf8 (Bytes ofString ofString_inj)

/-! ### Paths with repeated slashes -/

namespace Text.Path

variable {a b s t : List Char}

/-- A path with one slash for each run of slashes. -/
def squeeze : List Char → List Char
  | [] => []
  | c :: rest => if c = '/' ∧ rest.head? = some '/' then squeeze rest else c :: squeeze rest

/-- A text with no slash at its start stands unchanged by what is before it. -/
theorem squeeze_append (h : b.head? ≠ some '/') : squeeze (a ++ b) = squeeze a ++ squeeze b := by
  induction a with
  | nil => rfl
  | cons c rest ih =>
    have hhead : (rest ++ b).head? = some '/' ↔ rest.head? = some '/' := by
      cases rest with
      | nil => exact ⟨fun hb => absurd hb h, fun hnil => by cases hnil⟩
      | cons d rest => exact Iff.rfl
    simp only [List.cons_append, squeeze, hhead, ih]
    split <;> rfl

/-- Without slashes there is nothing to squeeze. -/
theorem squeeze_of_not_mem (h : '/' ∉ s) : squeeze s = s := by
  induction s with
  | nil => rfl
  | cons c rest ih =>
    have hc : ¬(c = '/' ∧ rest.head? = some '/') := fun hc =>
      h (by rw [hc.1]; exact List.mem_cons_self)
    rw [squeeze, if_neg hc, ih fun hmem => h (List.mem_cons_of_mem c hmem)]

/-- What is put behind a slash is seen again. -/
theorem squeeze_slash_append (h : '/' ∉ t) :
    squeeze (s ++ '/' :: t) = squeeze (s ++ ['/']) ++ t := by
  have hhead : t.head? ≠ some '/' := fun ht => h (List.mem_of_head? ht)
  rw [List.append_cons, squeeze_append hhead, squeeze_of_not_mem h]

/-- A run of slashes counts as one. -/
theorem squeeze_slashes (n : Nat) :
    squeeze (a ++ (List.replicate (n + 1) '/' ++ b)) = squeeze (a ++ '/' :: b) := by
  -- The induction is on what stands before the run, and at its end on the run.
  induction a with
  | nil =>
    induction n with
    | zero => rfl
    | succ n ih =>
      rw [← ih]
      exact if_pos ⟨rfl, rfl⟩
  | cons c rest ih =>
    have hhead : (rest ++ (List.replicate (n + 1) '/' ++ b)).head? = (rest ++ '/' :: b).head? := by
      cases rest <;> rfl
    simp only [List.cons_append, squeeze, hhead, ih]

/-! ### The two parts of a path -/

/-- A path has no name just if it ends in a slash. -/
theorem name_eq_nil_iff (h : s ≠ []) : name s = [] ↔ s.getLast? = some '/' := by
  obtain ⟨front, last, rfl⟩ := List.eq_nil_or_concat s |>.resolve_left h
  rw [List.concat_eq_append, List.getLast?_concat]
  simp [name, List.takeWhile_cons]

/-- A run of one character is a number of copies of it. -/
theorem exists_replicate {c : Char} (h : ∀ d ∈ s, d = c) (hne : s ≠ []) :
    ∃ n, s = List.replicate (n + 1) c := by
  obtain ⟨n, hn⟩ := Nat.exists_eq_add_one_of_ne_zero (List.length_eq_zero_iff.not.mpr hne)
  exact ⟨n, hn ▸ List.eq_replicate_of_mem h⟩

/-- What ends with a slash is something that is left of it, and a run of slashes. -/
theorem exists_run (s : List Char) :
    ∃ n, s ++ ['/'] =
      ((s ++ ['/']).reverse.dropWhile (· == '/')).reverse ++ List.replicate (n + 1) '/' := by
  obtain ⟨run, hrun⟩ : ∃ run, run = ((s ++ ['/']).reverse.takeWhile (· == '/')).reverse := ⟨_, rfl⟩
  have hslash : ∀ d ∈ run, d = '/' := by
    intro d hd
    rw [hrun, List.mem_reverse] at hd
    exact beq_iff_eq.mp (List.all_eq_true.mp List.all_takeWhile d hd)
  -- The run is not empty: it has the slash that was put at the end.
  have hne : run ≠ [] := by
    rw [hrun]
    simp
  obtain ⟨n, hn⟩ := exists_replicate hslash hne
  refine ⟨n, ?_⟩
  rw [← hn, hrun, ← List.reverse_append, List.takeWhile_append_dropWhile, List.reverse_reverse]

/-- The directory of a path is what its last slash ends, without slashes at its end unless it is
nothing else. -/
theorem directory_append_cons (h : '/' ∉ t) :
    directory (s ++ '/' :: t) = if (s ++ ['/']).all (· == '/') then s ++ ['/']
      else ((s ++ ['/']).reverse.dropWhile (· == '/')).reverse := by
  have hskipped : ∀ d ∈ t.reverse, (d != '/') = true :=
    fun d hd => bne_of_mem_of_not_mem h (List.mem_reverse.mp hd)
  have hhead : ((s ++ '/' :: t).reverse.dropWhile (· != '/')).reverse = s ++ ['/'] := by
    rw [List.reverse_append, List.reverse_cons, List.append_assoc,
      List.dropWhile_append_of_pos hskipped]
    simp
  rw [directory, hhead]

/-- An absolute path is cut in two at a run of slashes. The directory keeps the run if it is nothing
else. -/
theorem exists_slashes (h : s.head? = some '/') :
    ∃ n, (directory s = List.replicate (n + 1) '/' ∧ s = directory s ++ name s) ∨
      ((directory s).head? = some '/' ∧
        s = directory s ++ (List.replicate (n + 1) '/' ++ name s)) := by
  obtain ⟨front, last, rfl, hlast⟩ := exists_cut (List.mem_of_head? h)
  have hname : name (front ++ '/' :: last) = last := afterLast_append_cons hlast
  rw [hname, directory_append_cons hlast]
  split
  case isTrue hall =>
    obtain ⟨n, hn⟩ := exists_replicate (s := front ++ ['/'])
      (fun d hd => beq_iff_eq.mp (List.all_eq_true.mp hall d hd)) (by simp)
    exact ⟨n, .inl ⟨hn, by simp⟩⟩
  case isFalse hall =>
    -- The slashes at the end go with the name, and the one at the start stays.
    obtain ⟨n, hrun⟩ := exists_run front
    cases hkept : ((front ++ ['/']).reverse.dropWhile (· == '/')).reverse with
    | nil =>
      rw [hkept, List.nil_append] at hrun
      exact absurd (by rw [hrun]; simp) hall
    | cons c rest =>
      rw [hkept] at hrun
      have hsplit : front ++ '/' :: last = c :: rest ++ (List.replicate (n + 1) '/' ++ last) := by
        rw [← List.append_assoc, ← hrun]
        simp
      rw [hsplit] at h
      exact ⟨n, .inr ⟨h, hsplit⟩⟩

/-- The directory of an absolute path is absolute. -/
theorem head?_directory (h : s.head? = some '/') : (directory s).head? = some '/' := by
  obtain ⟨n, ⟨hdirectory, -⟩ | ⟨hhead, -⟩⟩ := exists_slashes h
  · rw [hdirectory]
    rfl
  · exact hhead

/-- A directory and a name make up the path that they are cut from. -/
theorem squeeze_directory_name (h : s.head? = some '/') :
    squeeze (directory s ++ '/' :: name s) = squeeze s := by
  obtain ⟨n, ⟨hdirectory, hs⟩ | ⟨-, hs⟩⟩ := exists_slashes h
  · -- The directory is the root, of one slash or more, and nothing else comes before the name.
    have hone : directory s ++ name s = List.replicate (n + 1) '/' ++ name s := by rw [hdirectory]
    have htwo : directory s ++ '/' :: name s = List.replicate (n + 1 + 1) '/' ++ name s := by
      rw [hdirectory, List.replicate_succ' (n := n + 1), List.append_assoc]
      rfl
    calc squeeze (directory s ++ '/' :: name s)
        = squeeze (List.replicate (n + 1 + 1) '/' ++ name s) := congrArg squeeze htwo
      _ = squeeze ('/' :: name s) := squeeze_slashes (a := []) (n + 1)
      _ = squeeze (List.replicate (n + 1) '/' ++ name s) := (squeeze_slashes (a := []) n).symm
      _ = squeeze s := congrArg squeeze (hs.trans hone).symm
  · calc squeeze (directory s ++ '/' :: name s)
        = squeeze (directory s ++ (List.replicate (n + 1) '/' ++ name s)) :=
          (squeeze_slashes n).symm
      _ = squeeze s := congrArg squeeze hs.symm

/-- With a directory, no other name makes up the path. -/
theorem squeeze_directory_eq_iff (h : s.head? = some '/') (ht : '/' ∉ t) :
    squeeze (directory s ++ '/' :: t) = squeeze s ↔ t = name s := by
  have hname : '/' ∉ name s := not_mem_afterLast
  rw [← squeeze_directory_name h, squeeze_slash_append ht, squeeze_slash_append hname]
  exact List.append_right_inj _

end Text.Path

/-! ### The file in an archive -/

namespace Archive.File

/-- A name has nothing in it that a name in a header cannot have, or it is not in the header. -/
theorem foundName_eq_name_iff {f : File} :
    f.foundName = f.name ↔ isLongName f.name = true ∨ '\x00' ∉ f.name.toList := by
  unfold foundName
  cases isLongName f.name with
  | true => simp
  | false =>
    -- A short name is read up to the first character of code zero.
    have hzero : ∀ c : Char, (c.toNat != 0) = true ↔ c ≠ '\x00' := by
      intro c
      rw [bne_iff_ne, Ne, Ne, ← Char.toNat_inj]
      rfl
    simp only [Bool.false_eq_true, if_false, false_or]
    rw [← String.toList_inj, String.toList_ofList, List.takeWhile_eq_self_iff]
    constructor
    · intro hall hmem
      exact (hzero _).mp (hall _ hmem) rfl
    · intro hnot c hc
      refine (hzero c).mpr ?_
      rintro rfl
      exact hnot hc

/-- The name that is found has no characters that were not in the name. -/
theorem mem_of_mem_foundName {f : File} {c : Char} (h : c ∈ f.foundName.toList) :
    c ∈ f.name.toList := by
  unfold foundName at h
  split at h
  · exact h
  · rw [String.toList_ofList] at h
    exact (List.takeWhile_sublist _).mem h

end Archive.File

namespace Engine

/-! ### Where a payload lands -/

/-- Whether an archive, unpacked in a directory, is one file of a content at a path: a regular file,
with a name that is one part of a path. -/
def Lands (path : String) (content : Bytes) (directory : String) (archive : Bytes) : Prop :=
  ∃ name : String, Archive.entries? archive = some [⟨48, ofString name, content⟩]
    ∧ name ≠ "" ∧ '/' ∉ name.toList ∧ directory.toList.head? = some '/'
    ∧ Text.Path.squeeze (directory.toList ++ '/' :: name.toList) = Text.Path.squeeze path.toList

namespace Adapter

/-- What a copy sends: if the container is found, it is given the archive. -/
theorem copy_sent (a : Adapter) (id : String) (p : Payload) (s : Session) :
    (a.copy id p.content p.target p.mode s).2.sent = s.sent ++ .findContainer id ::
      if (s.answer (.findContainer id)).isNone then
        [.putArchive (a.parcelOf p).1 (a.parcelOf p).2] else [] := by
  obtain ⟨log, hlog, r, horder, -⟩ := a.copy_meets (s := s) id p
  rw [hlog.sent]
  congr 1
  rcases horder with ⟨-, rfl⟩ | ⟨before, q, f, more, hrequests, rfl, -⟩
  · have hfound : s.answer (.findContainer id) = none := hlog.1
    rw [hfound]
    rfl
  · cases before with
    | nil =>
      -- The lookup is refused, so nothing is sent after it.
      obtain ⟨rfl, -⟩ := List.cons.inj hrequests
      have hlost : s.answer (.findContainer id) = some f := hlog.1
      rw [hlost]
      rfl
    | cons first before =>
      obtain ⟨rfl, hrest⟩ := List.cons.inj hrequests
      obtain ⟨rfl, rfl, rfl⟩ : before = [] ∧ _ = q ∧ more = [] := by
        rcases before with _ | ⟨second, before⟩
        · obtain ⟨hq, hmore⟩ := List.cons.inj hrest
          exact ⟨rfl, hq, hmore.symm⟩
        · have := congrArg List.length (List.cons.inj hrest).2
          simp at this
      have hfound : s.answer (.findContainer id) = none := hlog.1
      rw [hfound]
      rfl

/-- The check of a payload lets only absolute targets pass. -/
theorem isAbsolute_of_payload {d : Datum} {p : Payload} (h : Validation.payload d = .valid p) :
    p.target.toList.head? = some '/' := by
  unfold Validation.payload Validation.record at h
  split at h
  · have hfields := Checked.yields_eq_iff.mpr h
    simp only [Validation.payloadFields, Checked.yields_seq,
      Checked.yields_fmap] at hfields
    obtain ⟨target, htarget, content, -, mode, -, rfl⟩ := hfields
    obtain ⟨_, hchecked⟩ := Validation.exists_of_required htarget
    obtain ⟨text, -, hrule⟩ := Checked.andThen_eq_valid.mp hchecked
    -- The rule on the target is all that decides.
    split at hrule
    · cases hrule
      assumption
    · cases hrule
  · cases h

/-- The parts of an absolute target are the directory and the name of what is handed over. -/
theorem exists_parcelOf (a : Adapter) {p : Payload} (h : p.target.toList.head? = some '/') :
    ∃ directory file, a.parcelOf p = (directory, file) ∧
      directory.toList = Text.Path.directory p.target.toList ∧
      file.name.toList = Text.Path.name p.target.toList ∧ file.content = p.content := by
  have hne : String.ofList (Text.Path.directory p.target.toList) ≠ "" := by
    intro hnil
    have hhead := Text.Path.head?_directory h
    rw [String.ofList_eq_empty_iff.mp hnil] at hhead
    cases hhead
  refine ⟨String.ofList (Text.Path.directory p.target.toList),
    ⟨String.ofList (Text.Path.name p.target.toList), p.content, p.mode, a.now⟩, ?_,
    String.toList_ofList,
    String.toList_ofList, rfl⟩
  -- A directory that is not empty is taken as it is.
  unfold parcelOf parcel
  simp only [if_neg hne]

/-- A payload that passes its check lands at its target, unless the target ends with a slash or has
a zero in a name that stands in the header of the archive. If the container is found it is given one
regular file with the content of the payload in any case. -/
theorem copy_lands_iff (a : Adapter) {d : Datum} {p : Payload} (h : Validation.payload d = .valid p)
    (hfits : (a.parcelOf p).2.attributes.length < 8 ^ 11) (id : String) (s : Session) :
    ∃ directory file name,
      (a.copy id p.content p.target p.mode s).2.sent = s.sent ++ .findContainer id ::
        (if (s.answer (.findContainer id)).isNone then [.putArchive directory file] else []) ∧
      Archive.entries? file.archive = some [⟨48, ofString name, p.content⟩] ∧
      '/' ∉ name.toList ∧ directory.toList.head? = some '/' ∧
      (Lands p.target p.content directory file.archive ↔ p.target.toList.getLast? ≠ some '/' ∧
        (Archive.isLongName (String.ofList (Text.Path.name p.target.toList)) = true ∨
          '\x00' ∉ Text.Path.name p.target.toList)) := by
  have habsolute := isAbsolute_of_payload h
  have hne : p.target.toList ≠ [] := by
    intro hnil
    rw [hnil] at habsolute
    cases habsolute
  obtain ⟨directory, file, hparcel, hdirectory, hname, hcontent⟩ := a.exists_parcelOf habsolute
  have hsent := a.copy_sent id p s
  rw [hparcel] at hfits hsent
  have hread : Archive.entries? file.archive = some [⟨48, ofString file.foundName, p.content⟩] := by
    rw [← hcontent]
    exact Archive.File.entries?_archive hfits
  have hflat : '/' ∉ file.foundName.toList := by
    intro hmem
    have hmem := Archive.File.mem_of_mem_foundName hmem
    rw [hname] at hmem
    exact Text.not_mem_afterLast hmem
  have hrooted : directory.toList.head? = some '/' := by
    rw [hdirectory]
    exact Text.Path.head?_directory habsolute
  -- What is found makes up the target if it is all of the name.
  have hjoined : Text.Path.squeeze (directory.toList ++ '/' :: file.foundName.toList) =
      Text.Path.squeeze p.target.toList ↔ file.foundName = file.name := by
    rw [hdirectory, Text.Path.squeeze_directory_eq_iff habsolute hflat, ← hname, String.toList_inj]
  have hempty : file.name = "" ↔ p.target.toList.getLast? = some '/' := by
    rw [← Text.Path.name_eq_nil_iff hne, ← hname, String.toList_eq_nil_iff]
  refine ⟨directory, file, file.foundName, hsent, hread, hflat, hrooted, ?_⟩
  rw [← hname, String.ofList_toList, ← Archive.File.foundName_eq_name_iff, Ne, ← hempty]
  constructor
  · rintro ⟨name, hentry, hsome, -, -, htarget⟩
    rw [hread, Option.some.injEq] at hentry
    have hfound : file.foundName = name := by
      rw [← ofString_inj]
      exact congrArg Archive.Entry.name (List.cons.inj hentry).1
    rw [← hfound] at htarget hsome
    have hwhole := hjoined.mp htarget
    exact ⟨hwhole ▸ hsome, hwhole⟩
  · rintro ⟨hsome, hfound⟩
    exact ⟨file.foundName, hread, hfound ▸ hsome, hflat, hrooted, hjoined.mpr hfound⟩

/-- A note to be copied, to a target with a slash too many and a name that is not ASCII. -/
def note : Datum :=
  .record [("target", .text "/srv//naïve.txt"), ("content", .text "note")]

/-- An adapter at its defaults and a session in which everything is granted. -/
def plain : Adapter := ⟨⟨.usual, ""⟩, 1700000000⟩
def granting : Session := ⟨⟨"c1", "created", .null, [], [], none⟩, [], []⟩

/-- A note with a slash too many in its path lands where it should, under its own name. -/
theorem copy_lands_iff_of_note :
    Validation.payload note = .valid ⟨"/srv//naïve.txt", ofString "note", 0o644⟩ ∧
      ∃ directory file,
        (plain.copy "c1" (ofString "note") "/srv//naïve.txt" 0o644 granting).2.sent =
          [.findContainer "c1", .putArchive directory file] ∧
        Lands "/srv//naïve.txt" (ofString "note") directory file.archive := by
  have hvalid : Validation.payload note = .valid ⟨"/srv//naïve.txt", ofString "note", 0o644⟩ := rfl
  obtain ⟨directory, file, name, hsent, -, -, -, hlands⟩ :=
    copy_lands_iff plain hvalid (by decide +kernel) "c1" granting
  exact ⟨hvalid, directory, file, hsent, hlands.mpr ⟨by decide +kernel, .inr (by decide +kernel)⟩⟩

end Adapter
end Engine
end Slipway
