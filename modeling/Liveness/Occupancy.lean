import Liveness.Fields
/-!
# Pool occupancy

The counts that a pool reports about its connections, and how hard it is being pushed.
-/
namespace Liveness

structure Occupancy where
  total : UInt64
  idle : UInt64
  active : UInt64
  waiting : UInt64
deriving DecidableEq

inductive Pressure where
  | idle
  | normal
  | saturated
  | starved
deriving DecidableEq

def Pressure.name : Pressure → String
  | .idle => "idle"
  | .normal => "normal"
  | .saturated => "saturated"
  | .starved => "starved"

namespace Occupancy

def empty : Occupancy := ⟨0, 0, 0, 0⟩

instance : Inhabited Occupancy := ⟨empty⟩

/-- The fraction of connections in use, zero for a pool without connections. -/
def utilization (o : Occupancy) : Binary64 :=
  if o.total = 0 then .zero else (Binary64.ofNat o.active.toNat).div (.ofNat o.total.toNat)

def isSaturated (o : Occupancy) : Bool := o.idle == 0 && decide (0 < o.total)

def hasWaiters (o : Occupancy) : Bool := decide (0 < o.waiting)

def pressure (o : Occupancy) : Pressure :=
  if o.hasWaiters then .starved
  else if o.isSaturated then .saturated
  else if o.active = 0 then .idle
  else .normal

def fields : List (Field Occupancy) :=
  [ .uint64 "total" total fun n o => { o with total := n },
    .uint64 "idle" idle fun n o => { o with idle := n },
    .uint64 "active" active fun n o => { o with active := n },
    .uint64 "waiting" waiting fun n o => { o with waiting := n } ]

def toJson (o : Occupancy) : Json := Fields.toJson fields o

/-- Every count has to be there. -/
def ofJson? (j : Json) : Option Occupancy := Fields.ofFullJson? fields empty j

end Occupancy

end Liveness
