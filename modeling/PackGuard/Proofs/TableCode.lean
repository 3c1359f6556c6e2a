import PackGuard.Encoding
import PackGuard.Proofs.SingleError

/-!
Requests met by a table of settings. The code is the last position whose entry does not exceed the
request, or the first position. The request is a limit across the shunt, a product that is rounded.
-/

namespace PackGuard

open Single

namespace Encoding

variable {entries : List Float32} {target entry : Float32}

theorem lastAtMost_concat (entries : List Float32) (last target : Float32) :
    lastAtMost (entries ++ [last]) target =
      if last ≤ target then entries.length else lastAtMost entries target := by
  simp [lastAtMost, List.zipIdx_append]

theorem lastAtMost_cases (entries : List Float32) (target : Float32) :
    lastAtMost entries target = 0 ∨
      ∃ entry, entries[lastAtMost entries target]? = some entry ∧ entry ≤ target := by
  induction entries using List.reverseRecOn with
  | nil => exact .inl rfl
  | append_singleton entries last ih =>
    rw [lastAtMost_concat]
    split
    · rename_i fits
      exact .inr ⟨last, List.getElem?_concat_length, fits⟩
    · refine ih.imp_right fun ⟨entry, found, fits⟩ => ⟨entry, ?_, fits⟩
      rwa [List.getElem?_append_left (List.getElem?_eq_some_iff.mp found).1]

theorem le_lastAtMost {j : ℕ} (found : entries[j]? = some entry) (fits : entry ≤ target) :
    j ≤ lastAtMost entries target := by
  induction entries using List.reverseRecOn with
  | nil => cases found
  | append_singleton entries last ih =>
    have inside := (List.getElem?_eq_some_iff.mp found).1
    rw [List.length_append, List.length_singleton] at inside
    rw [lastAtMost_concat]
    split
    · omega
    · rename_i outside
      rcases Nat.lt_succ_iff_lt_or_eq.mp inside with early | rfl
      · rw [List.getElem?_append_left early] at found
        exact ih found
      · rw [List.getElem?_concat_length, Option.some.injEq] at found
        exact absurd (found ▸ fits) outside

theorem lastAtMost_lt (some : entries ≠ []) (target : Float32) :
    lastAtMost entries target < entries.length := by
  rcases lastAtMost_cases entries target with first | ⟨entry, found, -⟩
  · rw [first]
    exact List.length_pos_iff.mpr some
  · exact (List.getElem?_eq_some_iff.mp found).1

theorem toNat_quantize_table (some : entries ≠ []) (few : entries.length ≤ 2 ^ 8)
    (target : Float32) {rounding : Rounding} (lowered : rounding ≠ .up) :
    ((table entries).quantize target rounding).toNat = lastAtMost entries target := by
  have less := (lastAtMost_lt some target).trans_le few
  cases rounding with
  | up => exact absurd rfl lowered
  | down | nearest => exact UInt16.toNat_ofNat_of_lt' (less.trans (by decide))

def millivolts (entries : List Float32) (code : ℕ) : ℚ := (entries[code]?.map Single.value).getD 0

variable {limit shunt : Float32}

theorem value_table {code : UInt16} (found : entries[code.toNat]? = some entry) :
    (table entries).value code = entry ∧ millivolts entries code.toNat = Single.value entry := by
  simp [value, millivolts, found]

/-- A threshold that does not exceed the limit across the shunt, as that is computed. The exact
product may fall short of it by rounding. -/
def NotAbove (limit shunt : Float32) (threshold : ℚ) : Prop :=
  threshold ≤ Single.value (limit * shunt) ∧
    threshold < Single.value limit * Single.value shunt + 1 / 2 ^ 16

theorem NotAbove.mono {threshold lower : ℚ} (h : NotAbove limit shunt threshold)
    (le : lower ≤ threshold) : NotAbove limit shunt lower :=
  ⟨le.trans h.1, le.trans_lt h.2⟩

theorem NotAbove.of_le (finite : limit.isFinite = true) (finite' : shunt.isFinite = true) {m : ℕ}
    (small : m ≤ 200) (le : (m : ℚ) ≤ Single.value (limit * shunt)) : NotAbove limit shunt m := by
  refine ⟨le, ?_⟩
  have representable : Representable ((m : ℚ) - 1 / 2 ^ 16) :=
    representable_dyadic (z := m * 2 ^ 16 - 1) (k := 16) (by push_cast; ring)
      (by rw [abs_le]; omega) (by norm_num)
  have product := (nearest_mul finite finite').lt representable (by linarith)
  linarith

/-- The setting that a table has for a limit across the shunt: the last one that does not exceed it,
or the first one. -/
theorem quantize_table_down (some : entries ≠ []) (few : entries.length ≤ 2 ^ 8)
    (whole : ∀ entry ∈ entries, entry.isFinite = true ∧ ∃ m : ℕ, m ≤ 200 ∧ Single.value entry = m)
    (finite : limit.isFinite = true) (finite' : shunt.isFinite = true) :
    let code := (table entries).quantize (limit * shunt) .down
    code.toNat < entries.length ∧
      (NotAbove limit shunt (millivolts entries code.toNat) ∨ code.toNat = 0) ∧
      (code.toNat + 1 = entries.length ∨
        Single.value (limit * shunt) < millivolts entries (code.toNat + 1)) ∧
      ((table entries).value code).isFinite = true ∧
      Single.value ((table entries).value code) = millivolts entries code.toNat := by
  intro code
  have position : code.toNat = lastAtMost entries (limit * shunt) := by
    have := lastAtMost_lt some (limit * shunt)
    exact UInt16.toNat_ofNat_of_lt' ((this.trans_le few).trans (by decide))
  have less : code.toNat < entries.length := position ▸ lastAtMost_lt some _
  have found := List.getElem?_eq_getElem less
  obtain ⟨finite_entry, m, small, value_eq⟩ := whole _ (List.getElem_mem less)
  obtain ⟨reported, threshold⟩ := value_table found
  refine ⟨less, ?_, ?_, reported ▸ finite_entry, reported ▸ threshold.symm⟩
  · rcases lastAtMost_cases entries (limit * shunt) with first | ⟨entry, at_position, le⟩
    · exact .inr (position.trans first)
    · left
      rw [← position, found, Option.some.injEq] at at_position
      rw [← at_position, le_iff, value_eq] at le
      rw [threshold, value_eq]
      exact .of_le finite finite' small le.2.2
  · by_cases more : code.toNat + 1 < entries.length
    · right
      have next := List.getElem?_eq_getElem more
      have past : ¬entries[code.toNat + 1] ≤ limit * shunt := fun fits => by
        have := le_lastAtMost next fits
        omega
      rw [le_iff, not_and, not_and] at past
      rw [millivolts, next]
      exact not_le.mp (past (isNaN_of_isFinite (whole _ (List.getElem_mem more)).1)
        (nearest_mul finite finite').number)
    · exact .inl (by omega)

end Encoding

end PackGuard
