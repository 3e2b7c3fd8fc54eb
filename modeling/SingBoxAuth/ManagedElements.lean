import Mathlib.Data.List.AList

/-! The elements that the outbound manager and the DNS transport manager keep: outbounds,
endpoints and DNS transports, with what their Start and Close methods report. -/
namespace SingBoxAuth.Managers

/-- Which object an element is. The managers compare elements as pointers. -/
inductive Identity
  | made (n : ℕ)
  | endpoint (n : ℕ)
  deriving DecidableEq, Repr

structure Element where
  identity : Identity
  type : String
  tag : String
  dependencies : List String
  deriving DecidableEq, Repr

inductive StartStage
  | initializing
  | start
  | postStart
  | started
  deriving DecidableEq, Repr

/-- What the Start and Close methods of the elements report. An element without such a method
reports nothing. -/
structure Lifecycle where
  start : Element → StartStage → Option String
  close : Element → Option String

structure Wording where
  name : Element → String
  circular : String
  kind : String

def outboundWording : Wording where
  name e := "outbound/" ++ e.type ++ "[" ++ e.tag ++ "]"
  circular := "circular outbound dependency: "
  kind := "outbound"

def transportWording : Wording where
  name e := "dns/" ++ e.type ++ "[" ++ e.tag ++ "]"
  circular := "circular server dependency: "
  kind := "server"

abbrev TagMap (V : Type) := AList fun _ : String => V

end SingBoxAuth.Managers
