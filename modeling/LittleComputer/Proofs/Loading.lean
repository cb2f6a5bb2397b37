import LittleComputer.Proofs.ObjectFile

/-!
# Loading writes exactly the image

An image that ends within the memory is written word by word from its origin on, and one that does
not leaves the memory alone. `Image.wordAt?` says what an image has for an address, so that one
equation tells every word after a load. Over a sequence of loads the last image that has a word for
an address decides.
-/

namespace LittleComputer

/-! ## Addresses of bytes -/

theorem toNat_evenAddress (a : UInt16) : (a &&& 0xFFFE).toNat = 2 * (a.toNat / 2) := by
  have ha : a.toNat < 65536 := a.toNat_lt
  have hhalf : (a &&& 0xFFFE).toNat / 2 = a.toNat / 2 := by
    rw [UInt16.toNat_and, Nat.and_div_two]
    exact (Nat.and_two_pow_sub_one_eq_mod (a.toNat / 2) 15).trans (Nat.mod_eq_of_lt (by omega))
  have heven : ¬ (a &&& 0xFFFE).toNat % 2 = 1 := by
    rw [UInt16.toNat_and, Nat.and_mod_two_eq_one]
    exact fun h => absurd h.2 (by decide)
  omega

theorem toNat_oddAddress (a : UInt16) : (a ||| 1).toNat = 2 * (a.toNat / 2) + 1 := by
  have hhalf : (a ||| 1).toNat / 2 = a.toNat / 2 := by
    rw [UInt16.toNat_or, Nat.or_div_two]
    exact Nat.or_zero _
  have hodd : (a ||| 1).toNat % 2 = 1 := by
    rw [UInt16.toNat_or, Nat.or_mod_two_eq_one]
    exact .inr rfl
  omega

namespace Memory

theorem word_of_half (m : Memory) {a b : UInt16} (h : a.toNat / 2 = b.toNat / 2) :
    m.word a = m.word b := by
  have hindex : index a = index b := Fin.ext h
  unfold word
  rw [hindex]

/-- A word is made of the byte at its even address and, 256 times, the one at its odd address. -/
theorem toNat_word (m : Memory) (a : UInt16) :
    (m.word a).toNat = (m.byte (a &&& 0xFFFE)).toNat + 256 * (m.byte (a ||| 1)).toNat := by
  have heven := toNat_evenAddress a
  have hodd := toNat_oddAddress a
  have hlow : m.byte (a &&& 0xFFFE) = UInt8.ofNat (m.word a).toNat := by
    unfold byte
    rw [m.word_of_half (b := a) (by omega)]
    exact if_neg (by omega)
  have hhigh : m.byte (a ||| 1) = UInt8.ofNat ((m.word a).toNat / 256) := by
    unfold byte
    rw [m.word_of_half (b := a) (by omega)]
    exact if_pos (by omega)
  have hword : (m.word a).toNat < 65536 := (m.word a).toNat_lt
  rw [hlow, hhigh, UInt8.toNat_ofNat', UInt8.toNat_ofNat']
  omega

end Memory

/-! ## What an image writes -/

namespace Image

/-- The image ends within the memory. -/
def Fits (i : Image) : Prop := i.origin.toNat / 2 + i.words.length ≤ memorySize

instance (i : Image) : Decidable i.Fits := inferInstanceAs (Decidable (_ ≤ _))

/-- The word that loading the image puts at an address, if it puts one there. -/
def wordAt? (i : Image) (address : UInt16) : Option UInt16 :=
  if i.Fits ∧ i.origin.toNat / 2 ≤ address.toNat / 2 then
    i.words[address.toNat / 2 - i.origin.toNat / 2]?
  else none

end Image

namespace Memory

theorem load_eq_of_fits (m : Memory) {i : Image} (h : i.Fits) :
    m.load i = .ok (i.origin &&& 0xFFFE, m.afterLoad i) := by
  obtain ⟨loaded, hload, -⟩ := m.load_of_fits h
  have hentry : UInt16.ofNat (2 * (i.origin.toNat / 2)) = i.origin &&& 0xFFFE := by
    rw [← toNat_evenAddress, UInt16.ofNat_toNat]
  unfold afterLoad
  rw [hload, hentry]

theorem load_of_not_fits (m : Memory) {i : Image} (h : ¬ i.Fits) :
    m.load i = .error .objectTooLong :=
  if_neg h

theorem afterLoad_of_not_fits (m : Memory) {i : Image} (h : ¬ i.Fits) : m.afterLoad i = m := by
  unfold afterLoad
  rw [m.load_of_not_fits h]

/-- Every word after a load is that of the image, if it has one there, or the old one. -/
theorem word_afterLoad (m : Memory) (i : Image) (address : UInt16) :
    (m.afterLoad i).word address = (i.wordAt? address).getD (m.word address) := by
  unfold Image.wordAt?
  by_cases hfits : i.Fits
  · obtain ⟨loaded, hload, hword⟩ := m.load_of_fits hfits
    have hafter : m.afterLoad i = loaded := by
      unfold afterLoad
      rw [hload]
    rw [hafter, hword]
    by_cases hbefore : address.toNat / 2 < i.origin.toNat / 2
    · rw [if_pos hbefore, if_neg (by omega)]
      rfl
    · rw [if_neg hbefore, if_pos ⟨hfits, by omega⟩, List.getD_eq_getElem?_getD]
  · rw [m.afterLoad_of_not_fits hfits, if_neg fun h => hfits h.1]
    rfl

/-- The memory once images were to be loaded one after the other. -/
def afterLoads (m : Memory) (images : List Image) : Memory := images.foldl afterLoad m

/-- However images lie on top of one another, each word is that of the last one which has a word
there. -/
theorem word_afterLoads (m : Memory) (images : List Image) (address : UInt16) :
    (m.afterLoads images).word address =
      (images.reverse.findSome? (·.wordAt? address)).getD (m.word address) := by
  unfold afterLoads
  induction images generalizing m with
  | nil => rfl
  | cons i rest ih =>
    rw [List.foldl_cons, ih, word_afterLoad, List.reverse_cons, List.findSome?_append]
    cases rest.reverse.findSome? (·.wordAt? address) with
    | some w => rfl
    | none => simp

end Memory

/-- Loading writes exactly the image. It fails if and only if the image does not end within the
memory, which is then as it was before. Otherwise it starts at the origin with its lowest bit
cleared; each word is that of the image if there is one for its place, and the old one if not. In
any case a word is made of its two bytes. -/
theorem loading_writes_exactly_image (m : Memory) (i : Image) :
    let base := i.origin.toNat / 2
    let after := m.afterLoad i
    (∀ fault, m.load i = .error fault ↔
      fault = .objectTooLong ∧ 0x8000 < base + i.words.length) ∧
    (0x8000 < base + i.words.length → after = m) ∧
    (base + i.words.length ≤ 0x8000 →
      m.load i = .ok (i.origin &&& 0xFFFE, after) ∧
      ∀ a : UInt16, after.word a =
        if h : base ≤ a.toNat / 2 ∧ a.toNat / 2 - base < i.words.length then
          i.words[a.toNat / 2 - base]
        else m.word a) ∧
    ∀ a : UInt16,
      (after.word a).toNat = (after.byte (a &&& 0xFFFE)).toNat +
        256 * (after.byte (a ||| 1)).toNat := by
  intro base after
  have hlong : 0x8000 < base + i.words.length ↔ ¬ i.Fits := Nat.not_le.symm
  refine ⟨fun fault => ?_, fun h => m.afterLoad_of_not_fits (hlong.mp h), fun hfits => ?_,
    after.toNat_word⟩
  · rw [hlong]
    by_cases hfits : i.Fits
    · rw [m.load_eq_of_fits hfits]
      exact ⟨nofun, fun h => absurd hfits h.2⟩
    · rw [m.load_of_not_fits hfits]
      exact ⟨fun h => ⟨(Except.error.inj h).symm, hfits⟩, fun h => by rw [h.1]⟩
  · refine ⟨m.load_eq_of_fits hfits, fun a => ?_⟩
    have hword : after.word a = (i.wordAt? a).getD (m.word a) := m.word_afterLoad i a
    rw [hword, Image.wordAt?]
    by_cases hbefore : base ≤ a.toNat / 2
    · rw [if_pos ⟨hfits, hbefore⟩]
      by_cases hindex : a.toNat / 2 - base < i.words.length
      · rw [dif_pos ⟨hbefore, hindex⟩, List.getElem?_eq_getElem hindex]
        rfl
      · rw [dif_neg fun h => hindex h.2, List.getElem?_eq_none (Nat.not_lt.mp hindex)]
        rfl
    · rw [if_neg fun h => hbefore h.2, dif_neg fun h => hbefore h.1]
      rfl

end LittleComputer
