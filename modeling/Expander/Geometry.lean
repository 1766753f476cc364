import Expander.Error

/-!
The organisation of the media behind a controller: channels, ranks, banks, rows and bursts.

`validate` accepts a geometry when its burst is a whole number of bytes, its row a whole number of
bursts, and its banks split evenly into groups of at least one row each. It puts no bound on the
parameters: the sizes are exact, and may be larger than what a word of 64 bits counts.
-/

set_option autoImplicit false

namespace Expander

structure Geometry where
  deviceSize : Nat
  deviceBusWidth : Nat
  burstLength : Nat
  deviceRowBuffer : Nat
  devicesPerRank : Nat
  ranksPerChannel : Nat
  banksPerRank : Nat
  bankGroupsPerRank : Nat
  channels : Nat
deriving DecidableEq, Repr, Inhabited

namespace Geometry

def burstBits (g : Geometry) : Nat := g.deviceBusWidth * g.devicesPerRank * g.burstLength

/-- The bytes that one burst moves across a rank. -/
def burstSize (g : Geometry) : Nat := g.burstBits / 8

def rowBufferSize (g : Geometry) : Nat := g.deviceRowBuffer * g.devicesPerRank

def columnsPerRow (g : Geometry) : Nat := g.rowBufferSize / g.burstSize

def rankCapacity (g : Geometry) : Nat := g.deviceSize * g.devicesPerRank

def channelCapacity (g : Geometry) : Nat := g.rankCapacity * g.ranksPerChannel

/-- The bytes behind the controller. -/
def capacity (g : Geometry) : Nat := g.channelCapacity * g.channels

def rowsPerBank (g : Geometry) : Nat := g.rankCapacity / (g.rowBufferSize * g.banksPerRank)

def banksPerGroup (g : Geometry) : Nat := g.banksPerRank / g.bankGroupsPerRank

/-- The bytes between two consecutive rows of one bank. -/
def rowStride (g : Geometry) : Nat :=
  g.rowBufferSize * g.banksPerRank * g.ranksPerChannel * g.channels

def parameters (g : Geometry) : List (String × Nat) :=
  [("device_size", g.deviceSize), ("device_bus_width", g.deviceBusWidth),
    ("burst_length", g.burstLength), ("device_rowbuffer_size", g.deviceRowBuffer),
    ("devices_per_rank", g.devicesPerRank), ("ranks_per_channel", g.ranksPerChannel),
    ("banks_per_rank", g.banksPerRank), ("bank_groups_per_rank", g.bankGroupsPerRank),
    ("channels", g.channels)]

/-- The first way in which positive parameters fail to fit together. -/
def fault? (g : Geometry) : Option GeometryFault :=
  if g.burstBits % 8 ≠ 0 then some .fractionalBurst
  else if g.rowBufferSize % g.burstSize ≠ 0 then some (.unevenRow g.rowBufferSize g.burstSize)
  else if g.banksPerRank % g.bankGroupsPerRank ≠ 0 then
    some (.unevenGroups g.banksPerRank g.bankGroupsPerRank)
  else if g.rowsPerBank = 0 then some .smallRank
  else none

/-- Passes when every parameter is positive and all of them fit together. -/
def validate (g : Geometry) : Except ConfigError Unit := do
  requirePositive g.parameters
  match g.fault? with
  | some fault => .error (.geometry fault)
  | none => .ok ()

end Geometry

end Expander
