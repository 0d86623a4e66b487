import Mathlib.Logic.Function.Basic
import Slipway.Binary64.Shortest
import Slipway.Proofs.Text.Shell
import Slipway.Proofs.Text.Utf8
import Slipway.Rendering

/-!
# `Slipway.Proofs.Rendering`: scripts say what their data say, whatever the data

A script that writes a rendered file and a script that waits for one are lines of pieces
(`script_eq`, `waitForFileCommand_eq`), each of which spells one word. So a reader of words finds
the content, the target and the path as they were given, and all else of the script stands where it
did.

`deeds?` goes on from the words to what the commands do to files. A script that writes a file only
works on a file beside the target and renames it in the end (`PutsInPlace`): whoever waits for the
target sees nothing of it until content and mode are there. -/

set_option autoImplicit false

namespace Slipway

open Slipway.Text.Shell

/-! ### Texts of numbers -/

namespace Binary64.Shortest

/-- Digits are safe in a shell. -/
theorem isSafe_of_mem_toDigits {n : Nat} {c : Char} (h : c ∈ Nat.toDigits 10 n) :
    isSafe c = true := by
  have hdigit : c.isDigit = true := Nat.isDigit_of_mem_toDigits (by decide) (by decide) h
  simp [isSafe, Char.isAlphanum, hdigit]

/-- So are significant digits. -/
theorem isSafe_of_mem_significant {n : Nat} {c : Char} (h : c ∈ significant n) :
    isSafe c = true := by
  unfold significant at h
  split at h
  · rw [List.mem_singleton.mp h]
    decide
  · have hc : c ∈ (Nat.toDigits 10 n).reverse.dropWhile (· == '0') := List.mem_reverse.mp h
    have hdigit : c ∈ (Nat.toDigits 10 n).reverse := (List.dropWhile_sublist _).subset hc
    exact isSafe_of_mem_toDigits (List.mem_reverse.mp hdigit)

/-- So are digits that are filled up. -/
theorem isSafe_of_mem_atLeast {width n : Nat} {c : Char}
    (h : c ∈ (Text.Digit.atLeast width n).toList) : isSafe c = true := by
  have hdigits : (toString n).toList = Nat.toDigits 10 n := Nat.toList_repr
  unfold Text.Digit.atLeast at h
  rw [String.toList_append, String.toList_ofList, hdigits, List.mem_append] at h
  cases h with
  | inl h =>
    rw [List.eq_of_mem_replicate h]
    decide
  | inr h => exact isSafe_of_mem_toDigits h

/-- So is a number that is laid out. -/
theorem isSafe_of_mem_layOut {l : Layout} {ds : List Char} (hds : ∀ c ∈ ds, isSafe c = true)
    {point : Int} {c : Char} (h : c ∈ layOut l ds point) : isSafe c = true := by
  have hzero : isSafe '0' = true := by decide
  have hpoint : isSafe '.' = true := by decide
  unfold layOut at h
  -- With a point in its place, or with an exponent.
  split at h
  · split at h
    · simp at h
      grind
    · simp at h
      grind [List.mem_of_mem_take, List.mem_of_mem_drop]
  · have hletter : isSafe 'e' = true := by decide
    have hminus : isSafe '-' = true := by decide
    have hplus : isSafe '+' = true := by decide
    simp at h
    grind [isSafe_of_mem_atLeast]

/-- The plain text of a number needs no quotes. -/
theorem isSafe_of_mem_toText {x : Binary64} {c : Char} (h : c ∈ x.toText.toList) :
    isSafe c = true := by
  -- Not a number, an infinity, or digits with a sign.
  cases x with
  | nan =>
    have hword : (toText nan).toList.all isSafe = true := by decide
    exact List.all_eq_true.mp hword c h
  | infinite s =>
    have hword : (toText (infinite s)).toList.all isSafe = true := by cases s <;> decide
    exact List.all_eq_true.mp hword c h
  | finite s m e =>
    have hbody : ∀ d ∈ (if m = 0 then ['0', '.', '0'] else
        layOut plain (significant (digits m e).1)
          ((Nat.toDigits 10 (digits m e).1).length + (digits m e).2)), isSafe d = true := by
      intro d hd
      split at hd
      · have hzero : ['0', '.', '0'].all isSafe = true := by decide
        exact List.all_eq_true.mp hzero d hd
      · exact isSafe_of_mem_layOut (fun a ha => isSafe_of_mem_significant ha) hd
    simp only [toText, text, String.toList_ofList] at h
    split at h
    · cases List.mem_cons.mp h with
      | inl hsign =>
        rw [hsign]
        decide
      | inr h => exact hbody c h
    · exact hbody c h

end Binary64.Shortest

/-! ### Contents -/

/-- A content whose bytes are those of a text is read as that text. -/
theorem Content.toText_of_toBytes {content : Content} {s : String}
    (h : content.toBytes = Text.Utf8.ofString s) : content.toText = .ok s := by
  have hread : Text.Utf8.toString? content.toBytes = .ok s := by
    rw [h, Text.Utf8.toString?_ofString]
  -- A text is encoded and decoded again; bytes are decoded only.
  cases content with
  | text t =>
    have ht : Text.Utf8.toString? (Text.Utf8.ofString t) = .ok s := hread
    rw [Text.Utf8.toString?_ofString] at ht
    cases ht
    rfl
  | bytes b =>
    have hb : Text.Utf8.toString? b = .ok s := hread
    rw [Content.toText, hb]

namespace Rendering

/-! ### The words of scripts -/

/-- The name of the file that a script works on before it is renamed. -/
def staging (target : String) : String := target ++ ".tmp"

/-- The words of a script that writes a file, but for the last, which is the target. -/
def writeWords (target content mode : String) : List String :=
  ["printf", "%s", content, ">", staging target]
    ++ (if mode = "" then [] else ["&&", "chmod", mode, staging target])
    ++ ["&&", "mv", "-f", staging target]

/-- The words of the loop that waits for a file. -/
def waitWords (path interval : String) : List String :=
  ["while", "[", "!", "-f", path, "];", "do", "sleep", interval ++ ";", "done;"]

/-! ### Scripts as lines of pieces -/

/-- Whether a piece of a script spells a word. -/
def SpellsString (piece word : String) : Prop := Spells piece.toList word.toList

/-- What is quoted spells the text. -/
theorem spells_quoteString (s : String) : SpellsString (quoteString s) s := by
  rw [SpellsString, quoteString, String.toList_ofList]
  exact spells_quote s.toList

/-- A plain text spells itself. -/
theorem spells_plainString {s : String} (hs : s ≠ "") (h : s.toList.all isPlain = true) :
    SpellsString s s :=
  spells_plain (by simpa using hs) (List.all_eq_true.mp h)

/-- What is quoted is one word, and that word is the text. -/
theorem splitString?_quoteString (s : String) : splitString? (quoteString s) = some [s] := by
  have hword := spells_quoteString s [] endsWord_nil
  rw [List.append_nil] at hword
  simp [splitString?, split?, hword, splitFrom]

/-- Pieces of a script with a blank after each. -/
def lineString (pieces : List String) : String := String.join (pieces.map (· ++ " "))

/-- The characters of a line are those of its pieces with blanks between them. -/
theorem toList_lineString (pieces : List String) :
    (lineString pieces).toList = line (pieces.map String.toList) := by
  induction pieces with
  | nil => rfl
  | cons piece pieces ih =>
    have hcons : lineString (piece :: pieces) = piece ++ " " ++ lineString pieces := by
      simp [lineString, String.join_cons]
    rw [hcons, String.toList_append, String.toList_append, ih]
    rfl

/-- A script of pieces that spell words is read as these words and those of what follows. -/
theorem splitString?_line {pieces words : List String} (h : List.Forall₂ SpellsString pieces words)
    (rest : String) :
    splitString? (lineString pieces ++ rest) = (splitString? rest).map (words ++ ·) := by
  have hspell : List.Forall₂ Spells (pieces.map String.toList) (words.map String.toList) :=
    List.forall₂_map_left_iff.mpr (List.forall₂_map_right_iff.mpr h)
  have hread := splitFrom_line hspell rest.toList
  unfold splitString? split?
  rw [String.toList_append, toList_lineString, hread]
  cases splitFrom .outside [] rest.toList with
  | none => rfl
  | some more => simp [Function.comp_def]

/-- The pieces of a script that writes a file. -/
def writePieces (target content mode : String) : List String :=
  ["printf", "'%s'", quoteString content, ">", quoteString (staging target)]
    ++ (if mode = "" then [] else ["&&", "chmod", mode, quoteString (staging target)])
    ++ ["&&", "mv", "-f", quoteString (staging target)]

/-- A script is its line and, at the end, the quoted target. -/
theorem script_eq (target content mode : String) :
    script target content mode
      = lineString (writePieces target content mode) ++ quoteString target := by
  have hprint : "printf '%s' " = "printf" ++ " " ++ ("'%s'" ++ " ") := by decide
  have hinto : " > " = " " ++ (">" ++ " ") := by decide
  have hmode : " && chmod " = " " ++ ("&&" ++ " " ++ ("chmod" ++ " ")) := by decide
  have hmove : " && mv -f " = " " ++ ("&&" ++ " " ++ ("mv" ++ " " ++ ("-f" ++ " "))) := by decide
  unfold script lineString writePieces staging
  rw [hprint, hinto, hmode, hmove]
  split <;>
  · simp only [String.append_assoc, List.map_append, List.map_cons, List.map_nil,
      String.join_append,
      String.join_cons, String.join_nil, String.append_empty]

/-- The pieces of a script spell its words. -/
theorem spells_writePieces (target content : String) {mode : String}
    (hmode : ∀ c ∈ mode.toList, isPlain c = true) :
    List.Forall₂ SpellsString (writePieces target content mode)
      (writeWords target content mode) := by
  have hformat : SpellsString "'%s'" "%s" := spells_singleQuoted "%s".toList
  have hcontent := spells_quoteString content
  have hstaging := spells_quoteString (staging target)
  unfold writePieces writeWords
  by_cases hm : mode = ""
  · simp (disch := decide) [hm, hformat, hcontent, hstaging, spells_plainString]
  · have hmode' : SpellsString mode mode := spells_plainString hm (List.all_eq_true.mpr hmode)
    simp (disch := decide) [hm, hformat, hcontent, hstaging, hmode', spells_plainString]

/-- The pieces of the loop that waits for a file. -/
def waitPieces (path interval : String) : List String :=
  ["while", "[", "!", "-f", quoteString path, "];", "do", "sleep", interval ++ ";", "done;"]

/-- The command is the shell with the loop in front of it. -/
theorem waitForFileCommand_eq (path command shell interval : String) :
    waitForFileCommand path command shell interval
      = [shell, "-c", lineString (waitPieces path interval) ++ command] := by
  have hwhile : "while [ ! -f " =
      "while" ++ " " ++ ("[" ++ " " ++ ("!" ++ " " ++ ("-f" ++ " "))) := by
    decide
  have hdo : " ]; do sleep " =
      " " ++ ("];" ++ " " ++ ("do" ++ " " ++ ("sleep" ++ " "))) := by decide
  have hdone : "; done; " = ";" ++ " " ++ ("done;" ++ " ") := by decide
  unfold waitForFileCommand lineString waitPieces
  rw [hwhile, hdo, hdone]
  simp only [String.append_assoc, List.map_cons, List.map_nil, String.join_cons, String.join_nil,
    String.append_empty]

/-- The pieces of the loop spell its words. -/
theorem spells_waitPieces (path : String) {interval : String}
    (hinterval : ∀ c ∈ interval.toList, isPlain c = true) :
    List.Forall₂ SpellsString (waitPieces path interval) (waitWords path interval) := by
  have hpath := spells_quoteString path
  have hend : SpellsString (interval ++ ";") (interval ++ ";") := by
    refine spells_plainString (by simp) ?_
    have hsemicolon : ";".toList.all isPlain = true := by decide
    rw [String.toList_append, List.all_append, hsemicolon, Bool.and_true]
    exact List.all_eq_true.mpr hinterval
  unfold waitPieces waitWords
  simp (disch := decide) [hpath, hend, spells_plainString]

/-- The words of a script that writes a file are its data, each as it is, between the words of the
commands. -/
theorem splitString?_script (target content : String) {mode : String}
    (hmode : ∀ c ∈ mode.toList, isPlain c = true) :
    splitString? (script target content mode) =
      some (writeWords target content mode ++ [target]) := by
  rw [script_eq, splitString?_line (spells_writePieces target content hmode),
    splitString?_quoteString]
  rfl

/-! ### What a script does to files -/

/-- A file: what it holds, and its mode if it was given one. -/
structure File where
  content : String
  mode : Option String
deriving DecidableEq, Repr

/-- The files that there are, by their paths. -/
abbrev Files := String → Option File

/-- What a command of a script does to files. -/
inductive Deed where
  /-- Makes a file or replaces what it holds. -/
  | write (path content : String)
  | setMode (path mode : String)
  | rename (source target : String)
deriving DecidableEq, Repr

namespace Deed

/-- The files after a deed. -/
def apply (fs : Files) : Deed → Files
  | write path content => Function.update fs path (some ⟨content, (fs path).bind File.mode⟩)
  | setMode path mode =>
    Function.update fs path ((fs path).map fun f => { f with mode := some mode })
  | rename source target => Function.update (Function.update fs target (fs source)) source none

/-- The files after deeds, one after the other. -/
def applyAll (deeds : List Deed) (fs : Files) : Files := deeds.foldl apply fs

/-- The paths at which a deed may change something. -/
def paths : Deed → List String
  | write path _ => [path]
  | setMode path _ => [path]
  | rename source target => [source, target]

/-- A deed changes only the paths that it names. -/
theorem apply_of_not_mem {d : Deed} {path : String} (h : path ∉ d.paths) (fs : Files) :
    d.apply fs path = fs path := by
  -- A file is written, given a mode, or moved.
  cases d with
  | write p content =>
    have hne : path ≠ p := by simpa [paths] using h
    exact Function.update_of_ne hne _ _
  | setMode p mode =>
    have hne : path ≠ p := by simpa [paths] using h
    exact Function.update_of_ne hne _ _
  | rename source target =>
    have hne : path ≠ source ∧ path ≠ target := by simpa [paths] using h
    show Function.update (Function.update fs target (fs source)) source none path = fs path
    rw [Function.update_of_ne hne.1, Function.update_of_ne hne.2]

/-- A file at which no deed changes anything is the same after all of them. -/
theorem applyAll_of_not_mem {deeds : List Deed} {path : String} (h : ∀ d ∈ deeds, path ∉ d.paths)
    (fs : Files) : applyAll deeds fs path = fs path := by
  induction deeds generalizing fs with
  | nil => rfl
  | cons d deeds ih =>
    have hrest : ∀ e ∈ deeds, path ∉ e.paths := fun e he => h e (List.mem_cons_of_mem d he)
    show applyAll deeds (d.apply fs) path = fs path
    rw [ih hrest, apply_of_not_mem (h d List.mem_cons_self)]

end Deed

/-- The deeds of words that are commands, each of which is run when the one before has succeeded. -/
def deeds? : List String → Option (List Deed)
  | ["printf", "%s", content, ">", path] => some [.write path content]
  | "printf" :: "%s" :: content :: ">" :: path :: "&&" :: rest =>
    (deeds? rest).map (.write path content :: ·)
  | ["chmod", mode, path] => some [.setMode path mode]
  | "chmod" :: mode :: path :: "&&" :: rest => (deeds? rest).map (.setMode path mode :: ·)
  | ["mv", "-f", source, target] => some [.rename source target]
  | "mv" :: "-f" :: source :: target :: "&&" :: rest =>
    (deeds? rest).map (.rename source target :: ·)
  | _ => none

/-- The file beside the target is not the target. -/
theorem staging_ne (target : String) : staging target ≠ target := by
  intro h
  have hlength := congrArg String.length h
  simp [staging] at hlength

/-- What a script that writes a file does before it renames it. -/
def preparation (target content mode : String) : List Deed :=
  .write (staging target) content :: if mode = "" then [] else [.setMode (staging target) mode]

/-- The words are read as the preparation and the move. -/
theorem deeds?_writeWords (target content mode : String) :
    deeds? (writeWords target content mode ++ [target])
      = some (preparation target content mode ++ [.rename (staging target) target]) := by
  by_cases hm : mode = ""
  · simp [hm, writeWords, preparation, deeds?]
  · simp [hm, writeWords, preparation, deeds?]

/-- The preparation touches only the file beside the target. -/
theorem paths_of_mem_preparation {target content mode : String} {d : Deed}
    (h : d ∈ preparation target content mode) : d.paths = [staging target] := by
  unfold preparation at h
  -- Without a mode the file is written only.
  split at h
  · rw [List.mem_singleton.mp h]
    rfl
  · cases List.mem_cons.mp h with
    | inl hwrite =>
      rw [hwrite]
      rfl
    | inr hmode =>
      rw [List.mem_singleton.mp hmode]
      rfl

/-- The file that is put in place among others. One that is there already keeps its mode when it is
written to. -/
def prepared (fs : Files) (target content mode : String) : File :=
  ⟨content, if mode = "" then (fs (staging target)).bind File.mode else some mode⟩

/-- After the preparation the file beside the target is ready. -/
theorem applyAll_preparation (fs : Files) (target content mode : String) :
    Deed.applyAll (preparation target content mode) fs (staging target)
      = some (prepared fs target content mode) := by
  by_cases hm : mode = ""
  · simp [hm, preparation, prepared, Deed.applyAll, Deed.apply]
  · simp [hm, preparation, prepared, Deed.applyAll, Deed.apply]

/-- What words do that are the commands of a script: they prepare a file beside the target and
rename it. Whichever of them have been run before, the target is as it was; the file that is renamed
has its content, and its mode if one is given; no other file is touched. -/
def PutsInPlace (words : List String) (target content mode : String) : Prop :=
  ∃ before, deeds? words = some (before ++ [.rename (staging target) target]) ∧
    ∀ fs : Files,
      (∀ n, Deed.applyAll (before.take n) fs target = fs target) ∧
      Deed.applyAll before fs (staging target) = some (prepared fs target content mode) ∧
      Deed.applyAll (before ++ [.rename (staging target) target]) fs target
        = some (prepared fs target content mode) ∧
      ∀ path, path ≠ target → path ≠ staging target →
        Deed.applyAll (before ++ [.rename (staging target) target]) fs path = fs path

/-- The words of a script put the file in its place. -/
theorem writeWords_putsInPlace (target content mode : String) :
    PutsInPlace (writeWords target content mode ++ [target]) target content mode := by
  have hne := staging_ne target
  refine ⟨preparation target content mode, deeds?_writeWords target content mode, ?_⟩
  intro fs
  have hready := applyAll_preparation fs target content mode
  -- The target is as before until the move; then it is the file, and nothing else has changed.
  refine ⟨?_, hready, ?_, ?_⟩
  · intro n
    refine Deed.applyAll_of_not_mem ?_ fs
    intro d hd
    rw [paths_of_mem_preparation (List.mem_of_mem_take hd), List.mem_singleton]
    exact hne.symm
  · have hlast : ∀ d, Deed.applyAll (preparation target content mode ++ [d]) fs
        = d.apply (Deed.applyAll (preparation target content mode) fs) := by
      intro d
      exact List.foldl_append
    rw [hlast]
    show (Function.update (Function.update _ target _) (staging target) none : Files) target = _
    rw [Function.update_of_ne hne.symm, Function.update_self]
    exact hready
  · intro path htarget hstaging
    refine Deed.applyAll_of_not_mem ?_ fs
    intro d hd
    cases List.mem_append.mp hd with
    | inl hd =>
      rw [paths_of_mem_preparation hd, List.mem_singleton]
      exact hstaging
    | inr hd =>
      rw [List.mem_singleton.mp hd]
      simp [Deed.paths, htarget, hstaging]

/-! ### Commands -/

/-- Octal digits are plain. -/
theorem isPlain_of_octal {c : Char} (h : '0' ≤ c ∧ c ≤ '7') : isPlain c = true := by
  have hdigit : c.isDigit = true := by
    simp only [Char.isDigit, Bool.and_eq_true, decide_eq_true_eq]
    exact ⟨h.1, Nat.le_trans (show c.toNat ≤ '7'.toNat from h.2) (by decide)⟩
  exact isPlain_of_isSafe (by simp [isSafe, Char.isAlphanum, hdigit])

/-- Scripts say what their data say, whatever the data.

The script of a command that writes a rendered file is read as the words of its commands with the
content, the mode and the paths among them, each as one word and as it was given. Run, it puts the
file in place. The script of a command that waits for a file is read as the words of its loop with
the path among them, followed by the words of the command that is run then; it has no words iff that
command has none. All of this holds if the seconds between two looks are written in plain
characters, as every number is. -/
theorem scripts_keep_their_data :
    (∀ (c : Container) (target mode : String) (render : Renderer) (content : Content)
      (text : String),
      render c = .ok content → content.toBytes = Text.Utf8.ofString text →
      (∀ d ∈ mode.toList, '0' ≤ d ∧ d ≤ '7') →
      ∃ script words,
        renderCommand c target render mode = .ok { Command.checked ["/bin/sh", "-c", script] with
          description := some ("write " ++ target) } ∧
        splitString? script = some words ∧
        words = ["printf", "%s", text, ">", target ++ ".tmp"]
          ++ (if mode = "" then [] else ["&&", "chmod", mode, target ++ ".tmp"])
          ++ ["&&", "mv", "-f", target ++ ".tmp", target] ∧
        PutsInPlace words target text mode) ∧
    (∀ path command shell interval : String, (∀ d ∈ interval.toList, isPlain d = true) →
      ∃ script, waitForFileCommand path command shell interval = [shell, "-c", script] ∧
        splitString? script = (splitString? command).map
          (["while", "[", "!", "-f", path, "];", "do", "sleep", interval ++ ";", "done;"] ++ ·)) ∧
    ∀ x : Binary64, ∀ d ∈ x.toText.toList, isPlain d = true := by
  refine ⟨?_, ?_, fun x d hd => isPlain_of_isSafe (Binary64.Shortest.isSafe_of_mem_toText hd)⟩
  · -- A mode is octal digits, so it is plain and stands without quotes.
    intro c target mode render content text hrender hbytes hmode
    have hplain : ∀ d ∈ mode.toList, isPlain d = true := fun d hd => isPlain_of_octal (hmode d hd)
    refine ⟨script target text mode, writeWords target text mode ++ [target], ?_,
      splitString?_script target text hplain, ?_, writeWords_putsInPlace target text mode⟩
    · rw [renderCommand, hrender]
      simp only [Content.toText_of_toBytes hbytes]
    · simp [writeWords, staging]
  · intro path command shell interval hinterval
    refine ⟨_, waitForFileCommand_eq path command shell interval, ?_⟩
    exact splitString?_line (spells_waitPieces path hinterval) command

/-- Data with quotes, blanks and signs of the shell in them. -/
theorem scripts_keep_their_data_of_quotes :
    (∀ d ∈ "755".toList, '0' ≤ d ∧ d ≤ '7') ∧ (∀ d ∈ "0.1".toList, isPlain d = true) ∧
    (∃ script, renderCommand ⟨"c1", "localhost", [], none⟩ "/etc/my app"
        (fun _ => .ok (.bytes (Text.Utf8.ofString "it's $1 && \\\n"))) "755"
          = .ok { Command.checked ["/bin/sh", "-c", script] with
            description := some ("write " ++ "/etc/my app") } ∧
      splitString? script = some ["printf", "%s", "it's $1 && \\\n", ">", "/etc/my app.tmp",
        "&&", "chmod", "755", "/etc/my app.tmp", "&&", "mv", "-f", "/etc/my app.tmp",
        "/etc/my app"]) ∧
    ∃ script, waitForFileCommand "it's" "serve 'a b'" "/bin/sh" "0.1" = ["/bin/sh", "-c", script] ∧
      splitString? script =
        some ["while", "[", "!", "-f", "it's", "];", "do", "sleep", "0.1;", "done;",
        "serve", "a b"] := by
  have hmode : ∀ d ∈ "755".toList, '0' ≤ d ∧ d ≤ '7' := by simp
  have hinterval : ∀ d ∈ "0.1".toList, isPlain d = true :=
    List.all_eq_true.mp (show "0.1".toList.all isPlain = true by decide)
  -- The command that follows is split as it stands.
  have hcommand : splitString? "serve 'a b'" = some ["serve", "a b"] := by decide
  refine ⟨hmode, hinterval, ?_, ?_⟩
  · obtain ⟨script, words, hrender, hsplit, hwords, -⟩ :=
      scripts_keep_their_data.1 ⟨"c1", "localhost", [], none⟩ "/etc/my app" "755"
        (fun _ => .ok (.bytes (Text.Utf8.ofString "it's $1 && \\\n"))) _ _ rfl rfl hmode
    refine ⟨script, hrender, ?_⟩
    rw [hsplit, hwords]
    decide
  · obtain ⟨script, hwait, hsplit⟩ :=
      scripts_keep_their_data.2.1 "it's" "serve 'a b'" "/bin/sh" "0.1" hinterval
    refine ⟨script, hwait, ?_⟩
    rw [hsplit, hcommand]
    decide

end Rendering
end Slipway
