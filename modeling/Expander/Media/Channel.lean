import Expander.Machine
import Expander.Media.Profile

/-!
Channels of either technology behind one contract.
-/

set_option autoImplicit false

namespace Expander

/-- One media channel of either technology. -/
inductive Media where
  | dram (channel : Dram)
  /-- A channel of non-volatile memory. -/
  | nvm (channel : Nvm)

namespace Media

def create (config : MediaConfig) : Media :=
  match config.timing with
  | .dram t => .dram (.create config.geometry t)
  | .nvm t => .nvm (.create config.geometry t)

/-- The entries of the tables that the channels of a controller take: one of the channels, and for
each of them one of its banks and, with DRAM, one of its ranks. -/
def tables (config : MediaConfig) : List Nat :=
  let g := config.geometry
  let banks := g.ranksPerChannel * g.banksPerRank
  match config.timing with
  | .dram _ => [g.channels, banks, g.ranksPerChannel]
  | .nvm _ => [g.channels, banks]

def createAll (m : Machine) (config : MediaConfig) : Except SimError (List Media) := do
  m.setAside (tables config)
  .ok (List.replicate config.geometry.channels (create config))

def access : Media → Coordinate → AccessKind → Tick → MediaAccess × Media
  | dram m, c, kind, earliest => let r := m.access c kind earliest; (r.1, dram r.2)
  | nvm m, c, kind, earliest => let r := m.access c kind earliest; (r.1, nvm r.2)

/-- Whether the row of a burst is open. -/
def isRowHit : Media → Coordinate → Bool
  | dram m, c => m.isRowHit c
  | nvm m, c => m.isRowHit c

instance : MediaChannel Media where
  access := access
  isRowHit := isRowHit
  staticLatency
    | dram m => MediaChannel.staticLatency m
    | nvm m => MediaChannel.staticLatency m
  commandSlot
    | dram m => MediaChannel.commandSlot m
    | nvm m => MediaChannel.commandSlot m
  statistics
    | dram m => m.counters
    | nvm m => m.counters

end Media

end Expander
