import LittleComputer.Command.Definition
import LittleComputer.Proofs.NumberGrammar
import LittleComputer.Proofs.Reading
import LittleComputer.Proofs.Symbols

/-!
# The grammar of definitions

A definition is a name, an equals sign and an address, which is a mark and hexadecimal digits. The
marks are `x` and `0x`, and either may be missing. They are taken off one after the other, so both
of them may stand there as well: `x0x22` is read as `x22` is. What is read is exact otherwise: the
address is told by the digits alone, one beyond 16 bits is a fault, and a fault leaves the assembler
as it is.
-/

namespace LittleComputer.Command

/-- The text is a name without an equals sign, an equals sign, one of the marks, and one or more
hexadecimal digits that denote the address. -/
structure Defines (marks : List Text) (t name : Text) (address : UInt16) : Prop where
  named : name ≠ []
  first : .char '=' ∉ name
  value : ∃ mark ∈ marks, ∃ digits : Text, Text.Digits 16 digits address.toNat ∧
    t = name ++ .char '=' :: (mark ++ digits)

/-- What an address can start with, one mark at most. -/
def addressMarks : List Text := ["", "x", "0x"]

/-- What is taken off the front of an address. -/
def takenMarks : List Text := ["", "x", "0x", "x0x"]

/-! ## Addresses -/

section Address

variable {digits t : Text} {w : UInt16} {n value : Nat}

theorem le_of_naturalFrom? (h : Text.naturalFrom? 16 t value = some n) : value ≤ n := by
  induction t generalizing value with
  | nil =>
    cases h
    exact Nat.le_refl _
  | cons g rest ih =>
    simp only [Text.naturalFrom?] at h
    cases hd : g.digit? 16 with
    | none =>
      rw [hd] at h
      cases h
    | some d =>
      rw [hd] at h
      have hle := ih h
      omega

/-- The range is told as soon as it is left, since digits that follow only make a number larger. -/
theorem addressFrom_eq_ok (hvalue : value < 65536) :
    addressFrom digits t value = .ok w ↔ Text.naturalFrom? 16 t value = some w.toNat := by
  induction t generalizing value with
  | nil =>
    simp only [addressFrom, Text.naturalFrom?, Except.ok.injEq, Option.some.injEq]
    rw [← UInt16.toNat_inj, UInt16.toNat_ofNat_of_lt' hvalue]
  | cons g rest ih =>
    simp only [addressFrom, Text.naturalFrom?]
    cases g.digit? 16 with
    | none => simp
    | some d =>
      by_cases hfits : value * 16 + d < 65536
      · simp only [hfits, if_true]
        exact ih hfits
      · simp only [hfits, if_false, reduceCtorEq, false_iff]
        intro h
        have hle := le_of_naturalFrom? h
        have hlt : w.toNat < 65536 := w.toNat_lt
        omega

theorem address_eq_ok : address t = .ok w ↔ Text.Digits 16 t w.toNat := by
  rw [← Text.natural?_eq_some (by decide)]
  unfold address Text.natural?
  cases t with
  | nil => simp
  | cons g rest => exact addressFrom_eq_ok (by decide)

theorem dropMark_append (mark t : Text) : dropMark mark (mark ++ t) = t := by
  unfold dropMark
  rw [if_pos (List.isPrefixOf_iff_prefix.mpr (List.prefix_append mark t)), List.drop_left]

theorem dropMark_of_unmarked {mark : Text} (h : ¬ mark <+: t) : dropMark mark t = t := by
  unfold dropMark
  rw [if_neg (mt List.isPrefixOf_iff_prefix.mp h)]

/-- A mark is taken off or was not there. -/
theorem dropMark_cases (mark t : Text) : t = mark ++ dropMark mark t ∨ t = dropMark mark t := by
  by_cases h : mark <+: t
  · obtain ⟨rest, rfl⟩ := h
    rw [dropMark_append]
    exact .inl rfl
  · exact .inr (dropMark_of_unmarked h).symm

theorem exists_dropMarks (t : Text) : ∃ mark ∈ takenMarks, t = mark ++ dropMarks t := by
  unfold dropMarks
  rcases dropMark_cases "x" t with hfirst | hfirst <;>
    rcases dropMark_cases "0x" (dropMark "x" t) with hsecond | hsecond
  · exact ⟨"x0x", by decide, hfirst.trans (congrArg (("x" : Text) ++ ·) hsecond)⟩
  · exact ⟨"x", by decide, hfirst.trans (congrArg (("x" : Text) ++ ·) hsecond)⟩
  · exact ⟨"0x", by decide, hfirst.trans hsecond⟩
  · exact ⟨"", by decide, hfirst.trans hsecond⟩

/-- There is no mark among digits, so that nothing else is taken off. -/
theorem dropMarks_append {mark : Text} (hmark : mark ∈ takenMarks)
    (hdigits : Text.Digits 16 digits n) :
    dropMarks (mark ++ digits) = digits := by
  have hunmarked : ∀ mark : Text, .char 'x' ∈ mark → ¬ mark <+: digits := by
    intro mark hx hleads
    obtain ⟨d, hd⟩ := hdigits.writes _ (hleads.subset hx)
    exact hd.ne (by decide) rfl rfl
  have hlast : dropMark "0x" digits = digits := dropMark_of_unmarked (hunmarked _ (by decide))
  simp only [takenMarks, List.mem_cons, List.not_mem_nil, or_false] at hmark
  unfold dropMarks
  rcases hmark with rfl | rfl | rfl | rfl
  · have hfirst : dropMark "x" digits = digits := dropMark_of_unmarked (hunmarked _ (by decide))
    show dropMark "0x" (dropMark "x" digits) = digits
    rw [hfirst, hlast]
  · rw [dropMark_append, hlast]
  · have hfirst : dropMark "x" (("0x" : Text) ++ digits) = ("0x" : Text) ++ digits := rfl
    rw [hfirst, dropMark_append]
  · have hfirst : dropMark "x" (("x0x" : Text) ++ digits) = ("0x" : Text) ++ digits := rfl
    rw [hfirst, dropMark_append]

end Address

/-! ## Names -/

theorem splitEquals?_eq_some {t name value : Text} :
    splitEquals? t = some (name, value) ↔
      t = name ++ .char '=' :: value ∧ .char '=' ∉ name := by
  have hpasses : ∀ g : Glyph, (!g.is '=') = true ↔ g ≠ .char '=' := by simp [Glyph.is]
  unfold splitEquals?
  constructor
  · intro h
    split at h
    · rename_i g rest hrest
      cases h
      have hg : g = .char '=' := by
        have hstops := Text.not_of_mem_head?_dropWhile (g := g) (by rw [hrest]; rfl)
        simpa [Glyph.is] using hstops
      refine ⟨?_, fun hmem => ?_⟩
      · rw [← hg, ← hrest, List.takeWhile_append_dropWhile]
      · have hall :=
          List.all_eq_true.mp (List.all_takeWhile (p := fun g : Glyph => !g.is '=') (l := t))
        exact (hpasses _).mp (hall _ hmem) rfl
    · cases h
  · rintro ⟨rfl, hname⟩
    have hall : ∀ g ∈ name, (!g.is '=') = true :=
      fun g hg => (hpasses g).mpr fun h => hname (h ▸ hg)
    rw [List.dropWhile_append_of_pos hall, List.takeWhile_append_of_pos hall]
    simp [Glyph.is]

/-! ## Definitions -/

theorem definition_eq_ok {t name : Text} {w : UInt16} :
    definition t = .ok (name, w) ↔ Defines takenMarks t name w := by
  constructor
  · intro h
    unfold definition at h
    split at h
    · cases h
    · cases h
    · rename_i found value hnamed hsplit
      obtain ⟨_, haddress, hpair⟩ := Outcome.bind_eq_ok.mp h
      cases hpair
      obtain ⟨rfl, hfirst⟩ := splitEquals?_eq_some.mp hsplit
      obtain ⟨mark, hmark, hvalue⟩ := exists_dropMarks value
      refine ⟨hnamed, hfirst, mark, hmark, dropMarks value, ?_, ?_⟩
      · exact address_eq_ok.mp haddress
      · rw [← hvalue]
  · rintro ⟨hnamed, hfirst, mark, hmark, digits, hdigits, rfl⟩
    obtain ⟨g, rest, rfl⟩ := List.exists_cons_of_ne_nil hnamed
    unfold definition
    rw [splitEquals?_eq_some.mpr ⟨rfl, hfirst⟩]
    show (do return (g :: rest, ← address (dropMarks (mark ++ digits))) : Except DefinitionFault
      _) = _
    rw [dropMarks_append hmark hdigits, address_eq_ok.mpr hdigits]
    rfl

theorem define_of_defines (a : Assembler) {t name : Text} {w : UInt16}
    (h : Defines takenMarks t name w) :
    define a t = (a.predefine name w, none) := by
  unfold define
  rw [definition_eq_ok.mpr h]

theorem define_of_not_defines (a : Assembler) {t : Text}
    (h : ¬ ∃ name w, Defines takenMarks t name w) :
    ∃ fault, define a t = (a, some fault) := by
  unfold define
  cases hdefinition : definition t with
  | error fault => exact ⟨fault, rfl⟩
  | ok found => exact absurd ⟨found.1, found.2, definition_eq_ok.mp hdefinition⟩ h

/-- Definitions are taken exactly. A text is taken if and only if it is a name without an equals
sign, an equals sign and an address, and then the symbol of that name in upper case has that
address, whatever it had before, and all else is as it was. Otherwise the assembler is as it was.
The address stands behind one of the marks, or behind both. -/
theorem definitions_are_taken_exactly (a : Assembler) (t : Text) :
    let after := (define a t).1
    let fault := (define a t).2
    (fault = none ↔ ∃ name address, Defines takenMarks t name address) ∧
    (∀ name address, Defines takenMarks t name address →
      after.verbose = a.verbose ∧ after.implicitLabels = a.implicitLabels ∧
      ∀ key, after.predefined.addresses[key]? =
        if name.upper = key then some address else a.predefined.addresses[key]?) ∧
    (fault ≠ none → after = a) := by
  intro after fault
  by_cases hdefines : ∃ name address, Defines takenMarks t name address
  · obtain ⟨name, address, hdefinition⟩ := hdefines
    have hnone : fault = none := congrArg Prod.snd (define_of_defines a hdefinition)
    refine ⟨⟨fun _ => ⟨name, address, hdefinition⟩, fun _ => hnone⟩,
      fun name address hdefinition =>
      ?_,
      fun hfault => absurd hnone hfault⟩
    have hafter : after = a.predefine name address :=
      congrArg Prod.fst (define_of_defines a hdefinition)
    rw [hafter]
    exact ⟨rfl, rfl, SymbolTable.addresses_assign a.predefined name address⟩
  · obtain ⟨found, hdefine⟩ := define_of_not_defines a hdefines
    have hfault : fault = some found := congrArg Prod.snd hdefine
    refine ⟨⟨fun hnone => ?_, fun h => absurd h hdefines⟩,
      fun name address h => absurd ⟨name, address, h⟩ hdefines,
      fun _ => congrArg Prod.fst hdefine⟩
    cases hfault.symm.trans hnone

/-- Two marks are taken where one was to be. -/
theorem definition_takes_two_marks :
    let t : Text := "A=x0x22"
    (define {} t).2 = none ∧ (define {} t).1.predefined.lookup? "A" = some 0x22 ∧
      ¬ ∃ name address, Defines addressMarks t name address := by
  intro t
  refine ⟨by decide, by decide, ?_⟩
  rintro ⟨name, address, -, hfirst, mark, hmark, digits, hdigits, ht⟩
  have hsplit : splitEquals? t = some (("A" : Text), ("x0x22" : Text)) := by decide
  have hvalue : mark ++ digits = ("x0x22" : Text) := by
    have hsame := (splitEquals?_eq_some.mpr ⟨ht, hfirst⟩).symm.trans hsplit
    exact (Prod.mk.inj (Option.some.inj hsame)).2
  have hx : .char 'x' ∈ digits := by
    simp only [addressMarks, List.mem_cons, List.not_mem_nil, or_false] at hmark
    rcases hmark with rfl | rfl | rfl
    · obtain rfl : digits = ("x0x22" : Text) := hvalue
      decide
    · obtain rfl : digits = ("0x22" : Text) := List.append_cancel_left hvalue
      decide
    · cases hvalue
  obtain ⟨d, hd⟩ := hdigits.writes _ hx
  exact hd.ne (by decide) rfl rfl

end LittleComputer.Command
