/-!
# `Slipway.Port`: a port inside a container

A port is a number from 1 to 65535 with a protocol. Its key, such as `9092/tcp`, names it in the
port table of a container.
-/

set_option autoImplicit false

namespace Slipway

/-- A transport protocol. -/
inductive Protocol where
  | tcp
  | udp
  | sctp
deriving DecidableEq, Repr, Inhabited

namespace Protocol

/-- The protocols in the order in which messages list them. -/
def all : List Protocol := [tcp, udp, sctp]

/-- The name of a protocol. -/
def name : Protocol → String
  | tcp => "tcp"
  | udp => "udp"
  | sctp => "sctp"

/-- The protocol with a name. -/
def ofName? (s : String) : Option Protocol := all.find? (·.name == s)

end Protocol

/-- A port inside a container. -/
structure Port where
  number : Nat
  protocol : Protocol
  one_le : 1 ≤ number := by decide
  le_max : number ≤ 65535 := by decide
deriving DecidableEq, Repr

namespace Port

/-- The name of a port in a port table. -/
def key (p : Port) : String := toString p.number ++ "/" ++ p.protocol.name

instance : ToString Port := ⟨key⟩

/-- A port of the default protocol. -/
def tcp (number : Nat) (one_le : 1 ≤ number := by decide) (le_max : number ≤ 65535 := by decide) :
    Port := ⟨number, .tcp, one_le, le_max⟩

end Port
end Slipway
