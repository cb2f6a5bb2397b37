import LittleComputer.Text.Upper

/-!
# Upper case is final

A character in upper case has no other upper-case form, so names that are put in upper case twice
are the same as names that are put in upper case once. Within ASCII this is looked up character by
character. Beyond it the table gives runs of characters, and the forms that one run gives lie in no
other run: they lie before it, behind it, or between its members.
-/

namespace LittleComputer

/-- A fact of all characters of ASCII is a fact of the numbers below 128. -/
theorem ascii_of_numbers {p : Char → Prop} (h : ∀ n < 128, p (Char.ofNat n)) :
    ∀ c : Char, c.toNat < 128 → p c := by
  intro c hc
  simpa only [Char.ofNat_toNat] using h c.toNat hc

namespace CaseRun

/-- The upper-case form of the first member. -/
def least (r : CaseRun) : Nat := ((r.first : Int) + r.shift).toNat

/-- The upper-case form of the last member. -/
def greatest (r : CaseRun) : Nat := ((r.last : Int) + r.shift).toNat

/-- Whether the forms that `r` gives lie before, behind or between the members of `q`. -/
def misses (r q : CaseRun) : Bool :=
  Nat.blt r.greatest q.first || Nat.blt q.last r.least ||
    ((Nat.beq (r.stride % 2) 0 || Nat.beq r.first r.last) && Nat.beq (q.stride % 2) 0 &&
      Nat.beq ((r.least + q.first) % 2) 1)

theorem toUpper_misses {r q : CaseRun} (hr : r ∈ toUpper) (hq : q ∈ toUpper) :
    r.misses q = true := by
  have htable : toUpper.all (fun r => toUpper.all r.misses) = true := by decide +kernel
  exact List.all_eq_true.mp (List.all_eq_true.mp htable r hr) q hq

/-- The two forms within ASCII, `I` and `S`, come from runs of one character. -/
theorem toUpper_ascii {r : CaseRun} (hr : r ∈ toUpper) : 0 ≤ (r.first : Int) + r.shift ∧
    (128 ≤ r.least ∨ r.first = r.last ∧
      (Char.ofNat r.least).toUpper = Char.ofNat r.least) := by
  have htable : toUpper.all (fun r => decide (0 ≤ (r.first : Int) + r.shift) &&
      (decide (128 ≤ r.least) || (decide (r.first = r.last) &&
        decide ((Char.ofNat r.least).toUpper = Char.ofNat r.least)))) = true := by decide
  simpa using List.all_eq_true.mp htable r hr

theorem covers_iff {r : CaseRun} {n : Nat} :
    r.covers n = true ↔ r.first ≤ n ∧ n ≤ r.last ∧ (n - r.first) % r.stride = 0 := by
  simp [covers, and_assoc]

theorem even_of_stride {a k : Nat} (hk : k % 2 = 0) (ha : a % k = 0) : a % 2 = 0 :=
  Nat.mod_eq_zero_of_dvd (Nat.dvd_trans (Nat.dvd_of_mod_eq_zero hk) (Nat.dvd_of_mod_eq_zero ha))

theorem not_covers_of_misses {r q : CaseRun} {n : Nat} (hform : 0 ≤ (r.first : Int) + r.shift)
    (hn : r.covers n = true) (h : r.misses q = true) :
    q.covers ((n : Int) + r.shift).toNat = false := by
  obtain ⟨hfirst, hlast, hstride⟩ := covers_iff.mp hn
  rw [Bool.eq_false_iff]
  intro hcovered
  obtain ⟨hfirst', hlast', hstride'⟩ := covers_iff.mp hcovered
  simp only [misses, Bool.or_eq_true, Bool.and_eq_true, Nat.blt_eq, Nat.beq_eq] at h
  unfold least greatest at h
  rcases h with (hbefore | hbehind) | ⟨⟨hown, hother⟩, hbetween⟩
  · omega
  · omega
  · -- the members of `q` are all even or all odd, and so are the forms, but the other way round
    have hforms : (n - r.first) % 2 = 0 := by
      rcases hown with hown | hsingle
      · exact even_of_stride hown hstride
      · have hsame : n - r.first = 0 := by omega
        rw [hsame]
    have hmembers := even_of_stride hother hstride'
    omega

end CaseRun

/-- The form that a run gives to one of its members is in upper case. -/
theorem upperChar_form {r : CaseRun} (hr : r ∈ CaseRun.toUpper) {n m : Nat}
    (hn : r.covers n = true)
    (hm : ((n : Int) + r.shift).toNat = m) : upperChar (Char.ofNat m) = Char.ofNat m := by
  obtain ⟨hpositive, hascii⟩ := CaseRun.toUpper_ascii hr
  obtain ⟨hfirst, hlast, -⟩ := CaseRun.covers_iff.mp hn
  by_cases hvalid : m.isValidChar
  · have hnat : (Char.ofNat m).toNat = m := by
      unfold Char.ofNat
      rw [dif_pos hvalid]
      rfl
    unfold upperChar
    rw [hnat]
    split
    · rename_i hsmall
      unfold CaseRun.least at hascii
      rcases hascii with hbeyond | ⟨hsingle, hfixed⟩
      · omega
      · have hsame : ((r.first : Int) + r.shift).toNat = m := by omega
        rw [hsame] at hfixed
        exact hfixed
    · have hnone : CaseRun.toUpper.find? (·.covers m) = none := by
        refine List.find?_eq_none.mpr fun q hq => ?_
        rw [← hm, CaseRun.not_covers_of_misses hpositive hn (CaseRun.toUpper_misses hr hq)]
        exact Bool.false_ne_true
      rw [hnone]
  · have hnul : Char.ofNat m = Char.ofNat 0 := by
      unfold Char.ofNat
      rw [dif_neg hvalid]
      rfl
    rw [hnul]
    decide

/-- No upper-case form changes when it is put in upper case again. -/
theorem upperChar_upperChar (c : Char) : upperChar (upperChar c) = upperChar c := by
  by_cases hc : c.toNat < 128
  · exact ascii_of_numbers (p := fun c => upperChar (upperChar c) = upperChar c) (by decide) c hc
  · cases hfind : CaseRun.toUpper.find? (·.covers c.toNat) with
    | none =>
      have hself : upperChar c = c := by
        unfold upperChar
        rw [if_neg hc, hfind]
      rw [hself, hself]
    | some r =>
      have hcovers : r.covers c.toNat = true := by simpa using List.find?_some hfind
      have hform : upperChar c = Char.ofNat ((c.toNat : Int) + r.shift).toNat := by
        unfold upperChar
        rw [if_neg hc, hfind]
      rw [hform]
      exact upperChar_form (List.mem_of_find?_eq_some hfind) hcovers rfl

namespace Text

theorem ofString_injective {s t : String} (h : (s : Text) = t) : s = t := by
  have hscalars := congrArg scalars h
  rw [scalars_ofString, scalars_ofString] at hscalars
  exact String.toList_injective hscalars

/-- A text in upper case is its own upper-case form. -/
theorem upper_upper (t : Text) : (t.upper : Text).upper = t.upper := by
  apply String.toList_injective
  rw [toList_upper, scalars_ofString, toList_upper, List.map_map]
  exact List.map_congr_left fun c _ => upperChar_upperChar c

end Text

end LittleComputer
