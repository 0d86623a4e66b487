import Slipway.Spec
import Slipway.Text.Shell
import Slipway.Validation.Condition

/-!
# `Slipway.Rendering`: files made from the started container

Some services need to know their own host port in a file. A renderer makes the file's content from
the started container. `materializer` copies it in; `renderCommand` writes it with a shell command,
to a file beside the target first, so that whoever waits for the target never sees half of it.
`waitForFileCommand` is the main process that waits until the file is there.
-/

set_option autoImplicit false

namespace Slipway

open Slipway.Text.Utf8 (Bytes)

/-- The content of a file. -/
inductive Content where
  | text (s : String)
  | bytes (b : Bytes)
deriving DecidableEq, Repr

namespace Content

/-- The bytes of a content. -/
def toBytes : Content → Bytes
  | text s => Text.Utf8.ofString s
  | bytes b => b

/-- The text of a content, or what is wrong with its bytes. -/
def toText : Content → Except Fault String
  | text s => .ok s
  | bytes b =>
    match Text.Utf8.toString? b with
    | .ok s => .ok s
    | .error e => .error (.defect (.notUtf8 e))

end Content

/-- A maker of content for a started container. -/
abbrev Renderer := Container → Except Fault Content

namespace Port

/-- The port that a datum names, in full or in short. -/
def parse (d : Datum) : Except Fault Port := (Validation.port d).get "ContainerPort"

end Port

namespace Container

/-- The host port of a port named by a datum. -/
def lookup (c : Container) (d : Datum) : Except Fault Int :=
  match Port.parse d with
  | .ok p => c.resolve p
  | .error e => .error e

/-- The address of a port named by a datum. -/
def address (c : Container) (d : Datum) : Except Fault String :=
  match Port.parse d with
  | .ok p => c.endpoint p
  | .error e => .error e

end Container

namespace Rendering

/-- A process that waits until a file is there and then runs a command. It looks every `interval`
seconds. -/
def waitForFileCommand (path command shell interval : String) : List String :=
  [shell, "-c", "while [ ! -f " ++ Text.Shell.quoteString path ++ " ]; do sleep " ++ interval
    ++ "; done; " ++ command]

/-- The script that writes a content to a file beside the target, sets its mode if one is given, and
gives it the target's name. -/
def script (target content mode : String) : String :=
  let staging := Text.Shell.quoteString (target ++ ".tmp")
  "printf '%s' " ++ Text.Shell.quoteString content ++ " > " ++ staging
    ++ (if mode = "" then "" else " && chmod " ++ mode ++ " " ++ staging)
    ++ " && mv -f " ++ staging ++ " " ++ Text.Shell.quoteString target

/-- The command that writes the rendered content to the target. -/
def renderCommand (c : Container) (target : String) (render : Renderer) (mode : String) :
    Except Fault Command :=
  match render c with
  | .error e => .error e
  | .ok content =>
    match content.toText with
    | .error e => .error e
    | .ok text => .ok { Command.checked ["/bin/sh", "-c", script target text mode] with
        description := some ("write " ++ target) }

/-- The factory that copies the rendered content to the target. -/
def materializer (target : String) (render : Renderer) (mode : Int) : Factory := fun c =>
  match render c with
  | .error e => .error e
  | .ok content =>
    (((Validation.target (.text target)).under (.key "target")).get "CopyToContainer").map fun t =>
      [.copy ⟨t, content.toBytes, mode⟩]

end Rendering

/-- One piece of a template: a fixed text, or what is known of the container. -/
inductive TemplatePart where
  | text (s : String)
  | host
  | port (d : Datum)
  | endpoint (d : Datum)
deriving Inhabited

/-- A template: bytes as they are, or pieces of text. -/
inductive Template where
  | bytes (b : Bytes)
  | parts (ps : List TemplatePart)
deriving Inhabited

namespace Template

/-- The text of a piece. -/
def renderPart (c : Container) : TemplatePart → Except Fault String
  | .text s => .ok s
  | .host => .ok c.host
  | .port d => (c.lookup d).map toString
  | .endpoint d => c.address d

/-- The text of pieces, in order; the first fault counts. -/
def renderParts (c : Container) : List TemplatePart → Except Fault String
  | [] => .ok ""
  | p :: rest =>
    match renderPart c p with
    | .error e => .error e
    | .ok s => (renderParts c rest).map (s ++ ·)

/-- The content that a template makes. -/
def render (t : Template) : Renderer := fun c =>
  match t with
  | bytes b => .ok (.bytes b)
  | parts ps => (renderParts c ps).map .text

end Template
end Slipway
