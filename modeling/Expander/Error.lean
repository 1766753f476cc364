import Expander.AddressRange

/-!
The causes for which a configuration is rejected or a simulation stops, and their wording.
-/

set_option autoImplicit false

namespace Expander

/-- The two sides of a stage: requests leave on the request side and arrive on the response side. -/
inductive LinkSide where
  | request
  | response
deriving DecidableEq, Repr

def LinkSide.text : LinkSide → String
  | .request => "request"
  | .response => "response"

/-- Why the parameters of a media geometry do not fit together. -/
inductive GeometryFault where
  /-- The bits of one burst do not make whole bytes. -/
  | fractionalBurst
  /-- The row buffer is not a whole number of bursts. -/
  | unevenRow (row burst : Nat)
  /-- The banks do not split evenly into bank groups. -/
  | unevenGroups (banks groups : Nat)
  /-- The banks of a rank have no full row. -/
  | smallRank
  /-- A controller was given another number of media instances than channels. -/
  | channelCount (instances channels : Nat)
deriving DecidableEq, Repr

def GeometryFault.message : GeometryFault → String
  | .fractionalBurst => "burst is not a whole number of bytes"
  | .unevenRow row burst =>
    "row buffer of " ++ toString row ++ " bytes is not a multiple of the " ++ toString burst ++
      "-byte burst"
  | .unevenGroups banks groups =>
    toString banks ++ " banks cannot be split into " ++ toString groups ++ " bank groups"
  | .smallRank => "rank is smaller than one row per bank"
  | .channelCount instances channels =>
    toString instances ++ " media instances for " ++ toString channels ++ " channels"

/-- Why a threshold is rejected. -/
inductive ThresholdFault where
  /-- The high mark of the write queue is above one hundred percent. -/
  | highAboveFull (high : Nat)
  /-- The low mark of the write queue does not lie below the high mark. -/
  | lowNotBelowHigh (low high : Nat)
  /-- A refresh lasts as long as the interval between two refreshes. -/
  | refreshTooLong (cycle interval : Nat)
deriving DecidableEq, Repr

def ThresholdFault.field : ThresholdFault → String
  | .highAboveFull _ => "write_high_threshold_perc"
  | .lowNotBelowHigh _ _ => "write_low_threshold_perc"
  | .refreshTooLong _ _ => "t_rfc"

def ThresholdFault.reason : ThresholdFault → String
  | .highAboveFull high => toString high ++ " exceeds 100"
  | .lowNotBelowHigh low high =>
    toString low ++ " must be below the high threshold " ++ toString high
  | .refreshTooLong cycle interval =>
    "refresh cycle " ++ toString cycle ++ " must be shorter than the interval " ++
      toString interval

/-- Why a file cannot be read. -/
inductive ReadFault where
  | notPermitted
  | missing
  /-- The device behind the file fails. -/
  | deviceFailure
  | noDevice
  | denied
  /-- The name leads through something that is not a directory. -/
  | notDirectory
  | directory
  /-- Reading makes no sense for the file. -/
  | invalid
  | nameTooLong
  | tooManyLinks
  | notText
  /-- Another reason, in the words of the operating system. -/
  | other (reason : String)
deriving DecidableEq, Repr

namespace ReadFault

/-- The number and the wording that the operating system has for a fault. -/
def system? : ReadFault → Option (Nat × String)
  | notPermitted => some (1, "Operation not permitted")
  | missing => some (2, "No such file or directory")
  | deviceFailure => some (5, "Input/output error")
  | noDevice => some (6, "No such device or address")
  | denied => some (13, "Permission denied")
  | notDirectory => some (20, "Not a directory")
  | directory => some (21, "Is a directory")
  | invalid => some (22, "Invalid argument")
  | nameTooLong => some (36, "File name too long")
  | tooManyLinks => some (40, "Too many levels of symbolic links")
  | notText | other _ => none

def numbered : List ReadFault :=
  [notPermitted, missing, deviceFailure, noDevice, denied, notDirectory, directory, invalid,
    nameTooLong, tooManyLinks]

def ofNumber? (n : Nat) : Option ReadFault :=
  numbered.find? fun f => f.system?.any fun s => s.1 == n

def message (f : ReadFault) : String :=
  match f, f.system? with
  | _, some (number, wording) => wording ++ " (os error " ++ toString number ++ ")"
  | other reason, none => reason
  | _, none => "stream did not contain valid UTF-8"

end ReadFault

/-- A problem of the configuration or of the wiring, found before time advances. -/
inductive ConfigError where
  /-- Two ranges that must be disjoint share addresses. -/
  | overlappingRanges (first : AddressRange) (firstOwner : String)
      (second : AddressRange) (secondOwner : String)
  /-- A range is larger than the storage or the media behind it. -/
  | rangeExceedsCapacity (range : AddressRange) (capacity : Nat)
  /-- A depth, size or count is zero. -/
  | nonPositive (field : String)
  /-- A component that forwards requests has no peer to forward them to. -/
  | missingConnection (component : String)
  | alreadyConnected (component : String) (side : LinkSide)
  /-- The range of a component is not reachable through the stage in front of it. -/
  | uncoveredRange (range : AddressRange) (component via : String)
  /-- The media geometry does not fit together. -/
  | geometry (fault : GeometryFault)
  /-- A threshold or percentage is out of range. -/
  | threshold (fault : ThresholdFault)
  | malformed
  /-- The configuration file cannot be read. -/
  | unreadable (path : String) (fault : ReadFault)
deriving DecidableEq, Repr

def ConfigError.message : ConfigError → String
  | .overlappingRanges first firstOwner second secondOwner =>
    "address range " ++ first.text ++ " (`" ++ firstOwner ++ "`) overlaps " ++ second.text ++
      " (`" ++ secondOwner ++ "`)"
  | .rangeExceedsCapacity range capacity =>
    "range " ++ range.text ++ " exceeds backing capacity of " ++ Text.hex capacity ++ " bytes"
  | .nonPositive field => "`" ++ field ++ "` must be positive"
  | .missingConnection component =>
    "component `" ++ component ++ "` has no backend connection on its request port"
  | .alreadyConnected component side =>
    "component `" ++ component ++ "` is already connected on its " ++ side.text ++ " port"
  | .uncoveredRange range component via =>
    "range " ++ range.text ++ " of `" ++ component ++ "` is not covered by the `" ++ via ++
      "` address filter"
  | .geometry fault => "invalid media geometry: " ++ fault.message
  | .threshold fault => "invalid threshold `" ++ fault.field ++ "`: " ++ fault.reason
  | .malformed => "failed to parse configuration: not a configuration object"
  | .unreadable path fault =>
    "failed to read configuration `" ++ path ++ "`: " ++ fault.message

/-- A reason for which a system cannot be built or an access cannot be served. -/
inductive SimError where
  | config (cause : ConfigError)
  /-- An access reached a component that does not serve its addresses. -/
  | routing (addr : Nat) (component : String)
  /-- The backing storage cannot be allocated. -/
  | allocation (size : Nat)
  | unknownComponent (id : Nat)
  /-- An access spans more bursts than the controller queues ever hold. -/
  | requestTooLarge (addr size limit : Nat)
  /-- There is no room for a table. This error is not reported: the process stops. -/
  | capacity (entries : Nat)
deriving DecidableEq, Repr

def SimError.message : SimError → String
  | .config cause => cause.message
  | .routing addr component =>
    "no route for address " ++ Text.hex addr ++ " at `" ++ component ++ "`"
  | .allocation size =>
    "failed to allocate " ++ Text.hex size ++ " bytes of backing storage"
  | .unknownComponent id => "unknown component id " ++ toString id
  | .requestTooLarge addr size limit =>
    "access of " ++ toString size ++ " bytes at " ++ Text.hex addr ++ " exceeds the " ++
      toString limit ++ "-byte controller window"
  | .capacity _ => "capacity overflow"

/-- Passes when every named value is positive, and otherwise names the first that is zero. -/
def requirePositive : List (String × Nat) → Except ConfigError Unit
  | [] => .ok ()
  | (field, value) :: rest =>
    if value = 0 then .error (.nonPositive field) else requirePositive rest

end Expander
