import Expander.Simulation

/-!
The listings that the program prints: the memory map of a system, and the built-in profiles.
-/

set_option autoImplicit false

namespace Expander

def Simulation.mapLines (s : Simulation) : List String :=
  ("Topology: " ++ s.config.topology.name) ::
    s.memoryMap.zipIdx.map fun entry =>
      "  [" ++ toString entry.2 ++ "] " ++ entry.1.text ++ "  (type " ++
        toString entry.1.kind.typeNumber ++ ")"

def MediaTiming.technology : MediaTiming → String
  | .dram _ => "DRAM"
  | .nvm _ => "NVM"

def MediaProfile.line (p : MediaProfile) : String :=
  let g := p.geometry
  let column (width n : Nat) : String := Text.padLeft width (toString n)
  "  " ++ Text.padRight 16 p.name ++ " " ++ Text.padRight 5 p.timing.technology ++ " capacity " ++
    column 4 (g.capacity / gibibyte) ++ " GiB  burst " ++ column 3 g.burstSize ++ " B  row " ++
    column 5 g.rowBufferSize ++ " B  ranks " ++ toString g.ranksPerChannel ++ "  banks " ++
    toString g.banksPerRank ++ "  groups " ++ toString g.bankGroupsPerRank

def DeviceProfile.line (p : DeviceProfile) : String :=
  let column (n : Nat) : String := Text.padLeft 3 (toString n)
  "  " ++ Text.padRight 16 p.name ++ " protocol " ++ column (p.protocolLatency / nanosecond) ++
    " ns  req buffer " ++ column p.bufferSize ++ "  rsp buffer " ++ column p.bufferSize

def profileLines : List String :=
  "Media profiles:" :: MediaProfile.all.map MediaProfile.line ++
    "Device profiles:" :: DeviceProfile.all.map DeviceProfile.line

end Expander
