import Slipway.Catalog.Service

/-!
# `Slipway.Plan`: what is to be launched

A plan lists services, each a service of the catalog with options or the spec of a container. A plan
of one service may be written as that service.
-/

set_option autoImplicit false

namespace Slipway

/-- One service of a plan, before it is known to have exactly one source. -/
structure ServiceEntry where
  module : Option String
  options : List (String × Datum)
  spec : Option Spec

namespace ServiceEntry

/-- The rule that an entry breaks, if it breaks one. -/
def brokenRule? (e : ServiceEntry) : Option String :=
  match e.module, e.spec with
  | none, none => some "set exactly one of 'module' or 'spec'"
  | some _, some _ => some "set exactly one of 'module' or 'spec'"
  | some name, none =>
    if Catalog.Service.names.contains name then none
    else some ("unknown module " ++ Text.Quoted.ofString name ++ ", expected one of "
      ++ Text.Quoted.ofStrings Catalog.Service.names)
  | none, some _ => none

/-- A check of an entry. -/
def check : Validation.Check ServiceEntry :=
  Validation.record "ServiceEntry" fun fields =>
    let entry : Checked ServiceEntry :=
      (fun module options spec => { module, options, spec })
        <$> Validation.optional "module" none (Validation.nullable Validation.string) fields
        <*> Validation.optional "options" [] Validation.anyTable fields
        <*> Validation.optional "spec" none (Validation.nullable Validation.spec) fields
    entry.andThen fun e =>
      match e.brokenRule? with
      | some rule => .fail (.rule rule)
      | none => .valid e

/-- The options of an entry as a datum. -/
def optionsDatum (e : ServiceEntry) : Datum := .record e.options

/-- The entry as a record. -/
def dump (e : ServiceEntry) : Datum :=
  .record [("module", Datum.ofOption .text e.module), ("options", e.optionsDatum),
    ("spec", Datum.ofOption Spec.dump e.spec)]

/-- The spec of an entry. -/
def build (e : ServiceEntry) : Except Fault Spec :=
  match e.spec with
  | some s => .ok s
  | none => Catalog.Service.build (e.module.getD "") e.optionsDatum

/-- The name under which an entry is reported. -/
def label (e : ServiceEntry) : String :=
  match e.module with
  | some name => if name = "" then ((e.spec.map Spec.imageRef).getD "") else name
  | none => (e.spec.map Spec.imageRef).getD ""

end ServiceEntry

/-- The services to launch, at least one. -/
structure Plan where
  services : List ServiceEntry

namespace Plan

/-- A record that names no services is a plan of itself. -/
def expandShorthand : Datum → Datum
  | .mapping entries =>
    if (Datum.entry? "services" entries).isSome then .mapping entries
    else .record [("services", .list [.mapping entries])]
  | d => d

/-- A check of a plan. -/
def check : Validation.Check Plan := fun d =>
  Validation.record "LaunchPlan"
    (fun fields => (Validation.required "services"
      (Validation.listFrom 1 ServiceEntry.check) fields).map fun services => { services })
    (expandShorthand d)

/-- The plan as a record. -/
def dump (p : Plan) : Datum :=
  .record [("services", Datum.ofList ServiceEntry.dump p.services)]

/-- The specs of all services, in order; the first fault counts. -/
def build (p : Plan) : Except Fault (List Spec) := p.services.mapM ServiceEntry.build

end Plan
end Slipway
