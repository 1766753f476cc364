import Expander.Geometry

/-!
The places of bursts in the media.

A decoder splits the number of a burst into channel, column, bank, rank and row, least significant
part first, in one of three orders. The row comes last in each of them and wraps around. The offsets
of a system are words of 64 bits, which need not reach every burst of its geometry.
-/

set_option autoImplicit false

namespace Expander

/-- The order of the parts of an address, the most significant part first. -/
inductive AddressMapping where
  /-- Row, rank, bank, column, channel: consecutive bursts alternate between channels. -/
  | roRaBaCoCh
  /-- Row, rank, bank, channel, column: a row stays on one channel. -/
  | roRaBaChCo
  /-- Row, column, rank, bank, channel: consecutive bursts spread over the banks. -/
  | roCoRaBaCh
deriving DecidableEq, Repr, Inhabited

/-- The place of one burst in the media. -/
structure Coordinate where
  channel : Nat
  rank : Nat
  bank : Nat
  row : Nat
  column : Nat
deriving DecidableEq, Repr, Inhabited

/-- A fixed assignment of offsets to places. -/
structure AddressDecoder where
  geometry : Geometry
  mapping : AddressMapping
deriving DecidableEq, Repr

namespace AddressDecoder

def burstAlign (d : AddressDecoder) (offset : Nat) : Nat := offset - offset % d.geometry.burstSize

/-- The place of the burst that holds `offset`. -/
def decode (d : AddressDecoder) (offset : Nat) : Coordinate :=
  let g := d.geometry
  let burst := offset / g.burstSize
  match d.mapping with
  | .roRaBaCoCh =>
    let columns := burst / g.channels
    let banks := columns / g.columnsPerRow
    let ranks := banks / g.banksPerRank
    let rows := ranks / g.ranksPerChannel
    { channel := burst % g.channels, column := columns % g.columnsPerRow,
      bank := banks % g.banksPerRank, rank := ranks % g.ranksPerChannel,
      row := rows % g.rowsPerBank }
  | .roRaBaChCo =>
    let channels := burst / g.columnsPerRow
    let banks := channels / g.channels
    let ranks := banks / g.banksPerRank
    let rows := ranks / g.ranksPerChannel
    { column := burst % g.columnsPerRow, channel := channels % g.channels,
      bank := banks % g.banksPerRank, rank := ranks % g.ranksPerChannel,
      row := rows % g.rowsPerBank }
  | .roCoRaBaCh =>
    let banks := burst / g.channels
    let ranks := banks / g.banksPerRank
    let columns := ranks / g.ranksPerChannel
    let rows := columns / g.columnsPerRow
    { channel := burst % g.channels, bank := banks % g.banksPerRank,
      rank := ranks % g.ranksPerChannel, column := columns % g.columnsPerRow,
      row := rows % g.rowsPerBank }

/-- The starts of the bursts that an access of `size` bytes at `offset` touches, in order. -/
def burstsOf (d : AddressDecoder) (offset size : Nat) : List Nat :=
  let burst := d.geometry.burstSize
  let first := d.burstAlign offset
  let last := offset + max size 1 - 1
  (List.range ((last - first) / burst + 1)).map fun i => first + i * burst

end AddressDecoder

end Expander
