import Expander.AddressDecoder
import Mathlib.Data.List.Nodup

/-!
The bursts that an access touches.

They are the bursts of its bytes, each once (`mem_burstsOf`); an access without bytes touches the
burst at its start. All of them are aligned, and none starts behind the last byte.
-/

set_option autoImplicit false

namespace Expander.AddressDecoder

variable {d : AddressDecoder} {offset size burst x : Nat}

theorem burstAlign_dvd (d : AddressDecoder) (offset : Nat) :
    d.geometry.burstSize ∣ d.burstAlign offset :=
  Nat.dvd_sub_mod offset

theorem burstAlign_le (d : AddressDecoder) (offset : Nat) : d.burstAlign offset ≤ offset :=
  Nat.sub_le ..

theorem lt_burstAlign_add (positive : 0 < d.geometry.burstSize) (offset : Nat) :
    offset < d.burstAlign offset + d.geometry.burstSize := by
  have remainder := Nat.mod_lt offset positive
  rw [burstAlign]
  omega

theorem burstAlign_eq_self (aligned : d.geometry.burstSize ∣ offset) :
    d.burstAlign offset = offset := by
  rw [burstAlign, Nat.mod_eq_zero_of_dvd aligned, Nat.sub_zero]

theorem burstAlign_mono {y : Nat} (le : x ≤ y) : d.burstAlign x ≤ d.burstAlign y := by
  have size (z : Nat) : d.burstAlign z = d.geometry.burstSize * (z / d.geometry.burstSize) := by
    have split := Nat.div_add_mod z d.geometry.burstSize
    rw [burstAlign]
    omega
  rw [size, size]
  exact Nat.mul_le_mul_left _ (Nat.div_le_div_right le)

theorem exists_of_mem_burstsOf (mem : burst ∈ d.burstsOf offset size) :
    ∃ i, i ≤ (offset + max size 1 - 1 - d.burstAlign offset) / d.geometry.burstSize ∧
      d.burstAlign offset + i * d.geometry.burstSize = burst := by
  obtain ⟨i, lt, rfl⟩ := List.mem_map.1 mem
  exact ⟨i, Nat.le_of_lt_succ (List.mem_range.1 lt), rfl⟩

theorem dvd_of_mem_burstsOf (mem : burst ∈ d.burstsOf offset size) :
    d.geometry.burstSize ∣ burst := by
  obtain ⟨i, -, rfl⟩ := exists_of_mem_burstsOf mem
  exact Nat.dvd_add (d.burstAlign_dvd offset) (Nat.dvd_mul_left ..)

theorem le_of_mem_burstsOf (mem : burst ∈ d.burstsOf offset size) :
    burst ≤ offset + max size 1 - 1 := by
  obtain ⟨i, le, rfl⟩ := exists_of_mem_burstsOf mem
  have first := d.burstAlign_le offset
  have whole := Nat.le_trans (Nat.mul_le_mul_right d.geometry.burstSize le)
    (Nat.div_mul_le_self _ _)
  omega

theorem nodup_burstsOf (d : AddressDecoder) (offset size : Nat) :
    (d.burstsOf offset size).Nodup := by
  rw [burstsOf]
  rcases Nat.eq_zero_or_pos d.geometry.burstSize with none | positive
  · -- Bursts without bytes do not split an access.
    simp [none]
  · refine List.nodup_range.map_on fun i _ j _ same => ?_
    exact Nat.eq_of_mul_eq_mul_right positive (Nat.add_left_cancel same)

theorem burstAlign_mem_burstsOf (low : offset ≤ x) (high : x < offset + max size 1) :
    d.burstAlign x ∈ d.burstsOf offset size := by
  obtain ⟨i, steps⟩ := Nat.dvd_sub (d.burstAlign_dvd x) (d.burstAlign_dvd offset)
  have first := burstAlign_mono (d := d) low
  have last := d.burstAlign_le x
  have start : d.burstAlign offset + i * d.geometry.burstSize = d.burstAlign x := by
    rw [Nat.mul_comm, ← steps]
    omega
  rcases Nat.eq_zero_or_pos d.geometry.burstSize with none | positive
  · refine List.mem_map.2 ⟨0, List.mem_range.2 (Nat.succ_pos _), ?_⟩
    rw [none, Nat.mul_zero] at start
    rw [Nat.zero_mul]
    exact start
  · refine List.mem_map.2 ⟨i, List.mem_range.2 (Nat.lt_succ_of_le ?_), start⟩
    rw [Nat.le_div_iff_mul_le positive]
    omega

theorem mem_burstsOf (positive : 0 < d.geometry.burstSize) : burst ∈ d.burstsOf offset size ↔
    ∃ x, offset ≤ x ∧ x < offset + max size 1 ∧ d.burstAlign x = burst := by
  constructor
  · intro mem
    have le := le_of_mem_burstsOf mem
    obtain ⟨i, -, same⟩ := exists_of_mem_burstsOf mem
    have first := lt_burstAlign_add positive offset
    rcases Nat.eq_zero_or_pos i with rfl | later
    · exact ⟨offset, Nat.le_refl _, by omega, by simpa using same⟩
    · -- Every burst but the first starts with a byte of the access.
      have start := Nat.mul_le_mul_right d.geometry.burstSize later
      exact ⟨burst, by omega, by omega, burstAlign_eq_self (dvd_of_mem_burstsOf mem)⟩
  · rintro ⟨x, low, high, rfl⟩
    exact burstAlign_mem_burstsOf low high

theorem channel_decode_lt (some : 0 < d.geometry.channels) (offset : Nat) :
    (d.decode offset).channel < d.geometry.channels := by
  rw [decode]
  cases d.mapping <;> exact Nat.mod_lt _ some

end Expander.AddressDecoder
