import Slipway.Fault

/-!
# `Slipway.Severity`: how much is logged

A severity goes by a name in any case. A name that means nothing stands for `INFO`; two names mean
layouts of the log, which are no severities.
-/

set_option autoImplicit false

namespace Slipway.Severity

/-- The severities by name. A record is logged if its number is not below the chosen one. -/
def levels : List (String × Nat) :=
  [("CRITICAL", 50), ("FATAL", 50), ("ERROR", 40), ("WARN", 30), ("WARNING", 30), ("INFO", 20),
   ("DEBUG", 10), ("NOTSET", 0)]

/-- The severity of a name that means nothing. -/
def usual : Nat := 20

/-- The capitals of a character, as far as they are among those of the names: the small letters of
ASCII, and the few others whose capitals are. -/
def capitals (c : Char) : List Char :=
  match c with
  | 'ß' => ['S', 'S']
  | 'ı' => ['I']
  | 'ſ' => ['S']
  | 'ﬀ' => ['F', 'F']
  | 'ﬁ' => ['F', 'I']
  | 'ﬂ' => ['F', 'L']
  | 'ﬃ' => ['F', 'F', 'I']
  | 'ﬄ' => ['F', 'F', 'L']
  | 'ﬅ' => ['S', 'T']
  | 'ﬆ' => ['S', 'T']
  | c => [c.toUpper]

/-- The layout of a line of the log, and the layouts in their three notations. -/
def lineLayout : String := "%(levelname)s:%(name)s:%(message)s"
def layouts : String :=
  "\x7b'%': (<class 'logging.PercentStyle'>, '" ++ lineLayout ++ "'), "
    ++ "'\x7b': (<class 'logging.StrFormatStyle'>, "
    ++ "'\x7blevelname\x7d:\x7bname\x7d:\x7bmessage\x7d'), "
    ++ "'$': (<class 'logging.StringTemplateStyle'>, "
    ++ "'$\x7blevelname\x7d:$\x7bname\x7d:$\x7bmessage\x7d')\x7d"

/-- The number of the severity with a name. -/
def ofName (name : String) : Except Defect Nat :=
  let key := String.ofList (name.toList.flatMap capitals)
  match levels.lookup key with
  | some n => .ok n
  | none =>
    if key = "BASIC_FORMAT" then .error (.unknownLevel lineLayout)
    else if key = "_STYLES" then .error (.notALevel layouts)
    else .ok usual

end Slipway.Severity
