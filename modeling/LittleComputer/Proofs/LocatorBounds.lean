import LittleComputer.Expression.Evaluation
import LittleComputer.Layout.Locator64
import LittleComputer.Proofs.SizeBound
import LittleComputer.Proofs.Step

/-!
# The bounds of a locator

A locator can be asked to move to an origin, for its address and to advance, in any order.
`Locator.Sound` is what holds of it all the time, and `Locator.Keeps` what does not change any more
once something is placed. Both are kept by every call, also by one that fails.

A locator of 64 bits does the same for sizes below `Locator64.sizeLimit`, since no sum with an
address leaves its range then. The sizes of statements are far below. A sum that left the range
would be taken for a small one; `Locator64.advance_of_not_counts` says so, but no statement leads
there.
-/

namespace LittleComputer

/-- What a locator can be asked for. -/
inductive LocatorCall where
  | setOrigin (origin : UInt16)
  | here
  | advance (size : Nat)

/-- The bytes that a call is to go on by. -/
def LocatorCall.bytes : LocatorCall → Nat
  | .advance size => size
  | _ => 0

theorem LocatorCall.even_bytes {calls : List LocatorCall}
    (h : ∀ size, .advance size ∈ calls → size % 2 = 0) :
    ∀ c ∈ calls, c.bytes % wordSize = 0 := by
  intro c hc
  cases c with
  | setOrigin origin => rfl
  | here => rfl
  | advance size => exact h size hc

/-! ## Counting without a bound -/

namespace Locator

/-- The locator behind a call that may have failed, and its fault. -/
def outcome (loc : Locator) : Except Fault Locator → Locator × Option Fault
  | .ok next => (next, none)
  | .error fault => (loc, some fault)

def call (loc : Locator) : LocatorCall → Locator × Option Fault
  | .setOrigin origin => loc.outcome (loc.setOrigin origin)
  | .here => loc.outcome (Prod.snd <$> loc.here)
  | .advance size => loc.outcome (loc.advance size)

/-- The locator behind calls, of which some may have failed. -/
def after (loc : Locator) (calls : List LocatorCall) : Locator :=
  calls.foldl (fun loc c => (loc.call c).1) loc

structure Sound (loc : Locator) : Prop where
  even_origin : loc.origin.toNat % wordSize = 0
  even_address : loc.address % wordSize = 0
  origin_le : loc.origin.toNat ≤ loc.address
  le_limit : loc.address ≤ addressLimit
  unplaced : loc.placed = false → loc.address = loc.origin.toNat

/-- Once something is placed, the origin stays and the address does not go back. -/
def Keeps (loc later : Locator) : Prop :=
  loc.placed = true → later.placed = true ∧ later.origin = loc.origin ∧
    loc.address ≤ later.address

variable {loc next later : Locator}

/-- A call does nothing, moves a locator with nothing placed, or goes on and places. -/
theorem call_cases (loc : Locator) (c : LocatorCall) :
    (loc.call c).1 = loc ∨
    (loc.placed = false ∧ ∃ origin : UInt16, origin.toNat % wordSize = 0 ∧
      (loc.call c).1 = ⟨origin, origin.toNat, false⟩) ∨
    (loc.address + c.bytes ≤ addressLimit ∧
      (loc.call c).1 = { loc with address := loc.address + c.bytes, placed := true }) := by
  cases c with
  | setOrigin origin =>
    cases hmoved : loc.setOrigin origin with
    | error fault =>
      left
      simp only [call, hmoved, outcome]
    | ok next =>
      simp only [call, hmoved, outcome]
      obtain ⟨heven, ⟨-, -, rfl⟩ | ⟨hunplaced, rfl⟩⟩ := setOrigin_eq_ok.mp hmoved
      · exact .inl rfl
      · exact .inr (.inl ⟨hunplaced, origin, heven, rfl⟩)
  | here =>
    by_cases hbelow : loc.address < addressLimit
    · refine .inr (.inr ⟨Nat.le_of_lt hbelow, ?_⟩)
      simp only [call, here, if_pos hbelow]
      rfl
    · left
      simp only [call, here, if_neg hbelow]
      rfl
  | advance size =>
    cases hmoved : loc.advance size with
    | error fault =>
      left
      simp only [call, hmoved, outcome]
    | ok next =>
      simp only [call, hmoved, outcome]
      obtain ⟨-, rfl⟩ | ⟨-, hlimit, rfl⟩ := advance_eq_ok.mp hmoved
      · exact .inl rfl
      · exact .inr (.inr ⟨hlimit, rfl⟩)

theorem sound_start : Sound start := by
  constructor <;> decide

theorem Sound.call (h : loc.Sound) {c : LocatorCall} (heven : c.bytes % wordSize = 0) :
    (loc.call c).1.Sound := by
  obtain hsame | ⟨-, origin, horigin, hnext⟩ | ⟨hlimit, hnext⟩ := loc.call_cases c
  · rw [hsame]
    exact h
  · rw [hnext]
    exact ⟨horigin, horigin, Nat.le_refl _, Nat.le_of_lt origin.toNat_lt, fun _ => rfl⟩
  · have hle := h.origin_le
    have haddress := h.even_address
    rw [hnext]
    refine ⟨h.even_origin, ?_, ?_, hlimit, nofun⟩
    · simp only [wordSize] at haddress heven ⊢
      omega
    · show loc.origin.toNat ≤ loc.address + c.bytes
      omega

theorem keeps_call (loc : Locator) (c : LocatorCall) : loc.Keeps (loc.call c).1 := by
  intro hplaced
  obtain hsame | ⟨hunplaced, -⟩ | ⟨-, hnext⟩ := loc.call_cases c
  · rw [hsame]
    exact ⟨hplaced, rfl, Nat.le_refl _⟩
  · cases hplaced.symm.trans hunplaced
  · rw [hnext]
    exact ⟨rfl, rfl, Nat.le_add_right _ _⟩

theorem Keeps.trans (h : loc.Keeps next) (h' : next.Keeps later) : loc.Keeps later := by
  intro hplaced
  obtain ⟨hnext, horigin, hle⟩ := h hplaced
  obtain ⟨hlater, horigin', hle'⟩ := h' hnext
  exact ⟨hlater, horigin'.trans horigin, Nat.le_trans hle hle'⟩

theorem Sound.after (h : loc.Sound) {calls : List LocatorCall}
    (heven : ∀ c ∈ calls, c.bytes % wordSize = 0) : (loc.after calls).Sound := by
  induction calls generalizing loc with
  | nil => exact h
  | cons c rest ih =>
    obtain ⟨hc, hrest⟩ := List.forall_mem_cons.mp heven
    exact ih (h.call hc) hrest

theorem keeps_after (loc : Locator) (calls : List LocatorCall) : loc.Keeps (loc.after calls) := by
  induction calls generalizing loc with
  | nil => exact fun hplaced => ⟨hplaced, rfl, Nat.le_refl _⟩
  | cons c rest ih => exact (loc.keeps_call c).trans (ih _)

end Locator

/-! ## Counting in 64 bits -/

namespace Locator64

def call (l : Locator64) : LocatorCall → Locator64 × Option Fault
  | .setOrigin origin => l.setOrigin origin
  | .here =>
    match l.here with
    | (next, .ok _) => (next, none)
    | (next, .error fault) => (next, some fault)
  | .advance size => l.advance (Int64.ofNat size)

/-- The locator behind calls, of which some may have failed. -/
def after (l : Locator64) (calls : List LocatorCall) : Locator64 :=
  calls.foldl (fun l c => (l.call c).1) l

/-- The locator of 64 bits is where the other one is. -/
structure StandsFor (l : Locator64) (loc : Locator) : Prop where
  origin : l.origin = loc.origin
  address : l.address.toInt = loc.address
  placed : l.placed = loc.placed

/-- The sum of address and size is in the range of an address. -/
def Counts (l : Locator64) (size : Int64) : Prop :=
  l.address.toInt + size.toInt < 0x8000000000000000

/-- Sizes below this one can be added to every address up to the limit. -/
def sizeLimit : Nat := 0x8000000000000000 - addressLimit

variable {l : Locator64} {loc : Locator}

theorem toInt_word (w : UInt16) : (Int64.ofNat w.toNat).toInt = w.toNat :=
  Int64.toInt_ofNat_of_lt (Nat.lt_trans w.toNat_lt (by decide))

theorem toInt_limit : (Int64.ofNat addressLimit).toInt = addressLimit :=
  Int64.toInt_ofNat_of_lt (by decide)

theorem toInt_size {size : Nat} (h : size < sizeLimit) : (Int64.ofNat size).toInt = size :=
  Int64.toInt_ofNat_of_lt (Nat.lt_trans h (by decide))

theorem standsFor_start : start.StandsFor .start := ⟨rfl, toInt_word _, rfl⟩

/-- A call with a fault leaves the locator as it is. -/
theorem call_of_fault {c : LocatorCall} {fault : Fault} (h : (l.call c).2 = some fault) :
    (l.call c).1 = l := by
  cases c with
  | setOrigin origin =>
    simp only [call, setOrigin] at h ⊢
    by_cases hodd : origin.toNat % wordSize ≠ 0
    · rw [if_pos hodd]
    · rw [if_neg hodd] at h ⊢
      by_cases hplaced : l.placed = true
      · rw [if_pos hplaced]
        by_cases hreached : Int64.ofNat origin.toNat = l.address
        · rw [if_pos hreached]
        · rw [if_neg hreached]
      · rw [if_neg hplaced] at h
        cases h
  | here =>
    simp only [call, here] at h ⊢
    by_cases hbelow : l.address < Int64.ofNat addressLimit
    · rw [if_pos hbelow] at h
      cases h
    · rw [if_neg hbelow]
  | advance size =>
    simp only [call, advance] at h ⊢
    by_cases hzero : Int64.ofNat size = 0
    · rw [if_pos hzero]
    · rw [if_neg hzero] at h ⊢
      by_cases hlimit : l.address + Int64.ofNat size ≤ Int64.ofNat addressLimit
      · rw [if_pos hlimit] at h
        cases h
      · rw [if_neg hlimit]

theorem StandsFor.setOrigin (h : l.StandsFor loc) (origin : UInt16) :
    (l.call (.setOrigin origin)).1.StandsFor (loc.call (.setOrigin origin)).1 := by
  have hreached : Int64.ofNat origin.toNat = l.address ↔ origin.toNat = loc.address := by
    rw [← Int64.toInt_inj, toInt_word, h.address, Int.natCast_inj]
  simp only [call, Locator64.setOrigin, Locator.call, Locator.setOrigin, h.placed, hreached]
  by_cases hodd : origin.toNat % wordSize ≠ 0
  · rw [if_pos hodd, if_pos hodd]
    exact h
  · rw [if_neg hodd, if_neg hodd]
    by_cases hplaced : loc.placed = true
    · rw [if_pos hplaced, if_pos hplaced]
      by_cases hsame : origin.toNat = loc.address
      · rw [if_pos hsame, if_pos hsame]
        exact h
      · rw [if_neg hsame, if_neg hsame]
        exact h
    · rw [if_neg hplaced, if_neg hplaced]
      exact ⟨rfl, toInt_word origin, Bool.eq_false_iff.mpr hplaced⟩

theorem StandsFor.here (h : l.StandsFor loc) : (l.call .here).1.StandsFor (loc.call .here).1 := by
  have hbelow : l.address < Int64.ofNat addressLimit ↔ loc.address < addressLimit := by
    rw [Int64.lt_iff_toInt_lt, toInt_limit, h.address]
    omega
  simp only [call, Locator64.here, Locator.call, Locator.here, hbelow]
  by_cases hlimit : loc.address < addressLimit
  · rw [if_pos hlimit, if_pos hlimit]
    exact ⟨h.origin, h.address, rfl⟩
  · rw [if_neg hlimit, if_neg hlimit]
    exact h

theorem StandsFor.advance (h : l.StandsFor loc) (hlimit : loc.address ≤ addressLimit) {size : Nat}
    (hsize : size < sizeLimit) :
    (l.call (.advance size)).1.StandsFor (loc.call (.advance size)).1 := by
  have haddress := h.address
  have htoInt := toInt_size hsize
  have hzero : Int64.ofNat size = 0 ↔ size = 0 := by
    rw [← Int64.toInt_inj, Int64.toInt_zero, htoInt]
    omega
  have hsum : (l.address + Int64.ofNat size).toInt = ((loc.address + size : Nat) : Int) := by
    simp only [sizeLimit, addressLimit] at hsize hlimit
    rw [Int64.toInt_add, Int.bmod_eq_of_le]
    all_goals omega
  have hfits : l.address + Int64.ofNat size ≤ Int64.ofNat addressLimit ↔
      loc.address + size ≤ addressLimit := by
    rw [Int64.le_iff_toInt_le, toInt_limit, hsum]
    omega
  simp only [call, Locator64.advance, Locator.call, Locator.advance, hzero, hfits]
  by_cases hnothing : size = 0
  · rw [if_pos hnothing, if_pos hnothing]
    exact h
  · rw [if_neg hnothing, if_neg hnothing]
    by_cases hfit : loc.address + size ≤ addressLimit
    · rw [if_pos hfit, if_pos hfit]
      exact ⟨h.origin, hsum, rfl⟩
    · rw [if_neg hfit, if_neg hfit]
      exact h

/-- A locator of 64 bits goes where the other one goes. The other one is sound all the way, so its
address does not pass the limit, and no sum leaves the range. -/
theorem StandsFor.after (h : l.StandsFor loc) (hsound : loc.Sound) {calls : List LocatorCall}
    (heven : ∀ c ∈ calls, c.bytes % wordSize = 0)
    (hsizes : ∀ size, .advance size ∈ calls → size < sizeLimit) :
    (l.after calls).StandsFor (loc.after calls) := by
  induction calls generalizing l loc with
  | nil => exact h
  | cons c rest ih =>
    obtain ⟨hc, hrest⟩ := List.forall_mem_cons.mp heven
    have hstep : (l.call c).1.StandsFor (loc.call c).1 := by
      cases c with
      | setOrigin origin => exact h.setOrigin origin
      | here => exact h.here
      | advance size => exact h.advance hsound.le_limit (hsizes size List.mem_cons_self)
    exact ih hstep (hsound.call hc) hrest fun size hmem => hsizes size (List.mem_cons_of_mem _ hmem)

theorem StandsFor.in_bounds (h : l.StandsFor loc) (hsound : loc.Sound) :
    (l.origin.toNat % 2 = 0 ∧ l.address.toInt % 2 = 0) ∧
    (l.origin.toNat ≤ l.address.toInt ∧ l.address.toInt ≤ 0x10000) ∧
    (l.placed = false → l.address.toInt = l.origin.toNat) := by
  obtain ⟨heven, heven', hle, hlimit, hunplaced⟩ := hsound
  simp only [wordSize, addressLimit] at heven heven' hlimit
  rw [h.origin, h.address, h.placed]
  refine ⟨by omega, by omega, fun hplaced => ?_⟩
  rw [hunplaced hplaced]

theorem StandsFor.keeps {m : Locator64} {later : Locator} (h : l.StandsFor loc)
    (hm : m.StandsFor later) (hkeeps : loc.Keeps later) :
    l.placed = true → m.placed = true ∧ m.origin = l.origin ∧
      l.address.toInt ≤ m.address.toInt := by
  rw [h.origin, h.address, h.placed, hm.origin, hm.address, hm.placed, Int.ofNat_le]
  exact hkeeps

theorem here_eq_ok (hsound : 0 ≤ l.address.toInt) {a : UInt16} :
    l.here.2 = .ok a ↔ l.address.toInt < addressLimit ∧ (a.toNat : Int) = l.address.toInt := by
  have hbelow : l.address < Int64.ofNat addressLimit ↔ l.address.toInt < addressLimit := by
    rw [Int64.lt_iff_toInt_lt, toInt_limit]
  by_cases hlimit : l.address.toInt < addressLimit
  · have hsmall : l.address.toInt < 0x10000 := hlimit
    have hword : (UInt16.ofInt l.address.toInt).toNat = l.address.toInt.toNat := by
      unfold UInt16.ofInt
      rw [Int.emod_eq_of_lt hsound (by omega),
        UInt16.toNat_ofNat_of_lt' (by simp only [UInt16.size]; omega)]
    simp only [here, if_pos (hbelow.mpr hlimit), hlimit, true_and, Except.ok.injEq]
    rw [← UInt16.toNat_inj, hword]
    omega
  · simp only [here, if_neg (mt hbelow.mp hlimit), hlimit, false_and, reduceCtorEq]

/-- A sum out of range is taken for a negative number, and the locator advances. -/
theorem advance_of_not_counts (hsound : 0 ≤ l.address.toInt ∧ l.address.toInt ≤ addressLimit)
    {size : Int64} (h : ¬ l.Counts size) :
    (l.advance size).2 = none ∧ (l.advance size).1.address.toInt < 0 := by
  have hlt := size.toInt_lt
  have hlimit : addressLimit = 0x10000 := rfl
  unfold Counts at h
  -- the address is far below half of the range, so the sum wraps around once and stays below zero
  have hsum : (l.address + size).toInt = l.address.toInt + size.toInt - 0x10000000000000000 := by
    rw [Int64.toInt_add, Int.bmod_def]
    split <;> omega
  have hfits : l.address + size ≤ Int64.ofNat addressLimit := by
    rw [Int64.le_iff_toInt_le, toInt_limit, hsum]
    omega
  have hne : size ≠ 0 := by
    rintro rfl
    rw [Int64.toInt_zero] at h
    omega
  have hadvance : l.advance size =
      ({ l with address := l.address + size, placed := true }, none) := by
    simp only [advance, if_neg hne, if_pos hfits]
  rw [hadvance]
  refine ⟨rfl, ?_⟩
  show (l.address + size).toInt < 0
  omega

/-- The largest even size does not count at the first address: it leads below the origin. -/
example : ¬ start.Counts 0x7FFFFFFFFFFFFFFE ∧
    (start.advance 0x7FFFFFFFFFFFFFFE).1.address.toInt = -9223372036854763522 := by
  unfold Counts
  decide

end Locator64

/-- A locator stays in its bounds. After any calls with even sizes, of which some may have failed,
origin and address are even, the address lies between the origin and the limit, and is the origin as
long as nothing is placed; once something is placed the origin stays and the address does not go
back, whatever calls follow. With sizes below `sizeLimit` a locator of 64 bits is at the same place,
so all of that holds of it as well; it gives an address for a label exactly below the limit, the one
reached, and a call with a fault leaves it as it is. And the size of a statement from a source,
whatever scope it is taken in, is even and far below `sizeLimit`. -/
theorem locator_stays_in_bounds [Interpreter] (calls more : List LocatorCall)
    (heven : ∀ size, .advance size ∈ calls ++ more → size % 2 = 0) :
    ((Locator.start.after calls).Sound ∧
      (Locator.start.after calls).Keeps ((Locator.start.after calls).after more)) ∧
    ((∀ size, .advance size ∈ calls ++ more → size < Locator64.sizeLimit) →
      let loc := Locator64.start.after calls
      let later := loc.after more
      loc.StandsFor (Locator.start.after calls) ∧
      (loc.origin.toNat % 2 = 0 ∧ loc.address.toInt % 2 = 0) ∧
      (loc.origin.toNat ≤ loc.address.toInt ∧ loc.address.toInt ≤ 0x10000) ∧
      (loc.placed = false → loc.address.toInt = loc.origin.toNat) ∧
      (∀ a, loc.here.2 = .ok a ↔
        loc.address.toInt < 0x10000 ∧ (a.toNat : Int) = loc.address.toInt) ∧
      (∀ c fault, (loc.call c).2 = some fault → (loc.call c).1 = loc) ∧
      (loc.placed = true →
        later.placed = true ∧ later.origin = loc.origin ∧
          loc.address.toInt ≤ later.address.toInt)) ∧
    ∀ (implicitLabels : Bool) (input : Input) (scope : Scope),
      ∀ s ∈ (Listing.ofLines implicitLabels input.read.sourceLines).statements, ∀ size,
        scope.size s = .ok size →
          size % 2 = 0 ∧ size ≤ 0x1FFFE ∧ size < Locator64.sizeLimit := by
  have hcalls := LocatorCall.even_bytes fun size hmem => heven size (List.mem_append_left more hmem)
  have hmore := LocatorCall.even_bytes fun size hmem =>
    heven size (List.mem_append_right calls hmem)
  have hsound := Locator.sound_start.after hcalls
  have hkeeps := (Locator.start.after calls).keeps_after more
  refine ⟨⟨hsound, hkeeps⟩, ?_, ?_⟩
  · intro hsizes loc later
    have hloc : loc.StandsFor (Locator.start.after calls) :=
      Locator64.standsFor_start.after Locator.sound_start hcalls fun size hmem =>
        hsizes size (List.mem_append_left _ hmem)
    have hlater : later.StandsFor ((Locator.start.after calls).after more) :=
      hloc.after hsound hmore fun size hmem => hsizes size (List.mem_append_right _ hmem)
    obtain ⟨hparity, hbounds, hunplaced⟩ := hloc.in_bounds hsound
    exact ⟨hloc, hparity, hbounds, hunplaced, fun a => Locator64.here_eq_ok (by omega),
      fun c fault => Locator64.call_of_fault, hloc.keeps hlater hkeeps⟩
  · intro implicitLabels input scope s hs size hsize
    obtain ⟨hparity, hle⟩ := Scope.size_le_of_listed hs hsize
    exact ⟨hparity, hle, Nat.lt_of_le_of_lt hle (by decide)⟩

/-- A locator that was filled up to the limit gives no address for a label any more, and stays there
through calls that fail. -/
theorem filled_locator_stays_in_bounds :
    let filling : List LocatorCall := [.setOrigin 0x3001, .here, .advance 0xD000]
    let failing : List LocatorCall := [.here, .advance 2]
    let loc := Locator64.start.after filling
    let later := loc.after failing
    (loc.placed = true ∧ loc.address.toInt = 0x10000) ∧ (∀ a, loc.here.2 ≠ .ok a) ∧
    later.origin = loc.origin ∧ loc.address.toInt ≤ later.address.toInt := by
  intro filling failing loc later
  have hsizes : ∀ size, .advance size ∈ filling ++ failing →
      size % 2 = 0 ∧ size < Locator64.sizeLimit := by
    intro size hmem
    simp only [filling, failing, List.cons_append, List.nil_append, List.mem_cons, reduceCtorEq,
      LocatorCall.advance.injEq, List.not_mem_nil, or_false, false_or] at hmem
    obtain rfl | rfl := hmem <;> decide
  obtain ⟨-, hbounds, -⟩ :=
    locator_stays_in_bounds filling failing fun size hmem => (hsizes size hmem).1
  obtain ⟨-, -, -, -, hhere, -, hkeeps⟩ := hbounds fun size hmem => (hsizes size hmem).2
  have hfull : loc.placed = true ∧ loc.address.toInt = 0x10000 := by decide
  obtain ⟨-, horigin, hle⟩ := hkeeps hfull.1
  refine ⟨hfull, fun a ha => ?_, horigin, hle⟩
  have hbelow := ((hhere a).mp ha).1
  rw [hfull.2] at hbelow
  omega

end LittleComputer
