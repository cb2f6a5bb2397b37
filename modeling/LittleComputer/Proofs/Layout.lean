import Mathlib.Algebra.GroupWithZero.Nat
import LittleComputer.Proofs.LabelAddress

/-!
# The layout that a survey computes

A survey that goes through has placed every label at the origin plus the bytes of the statements
before it. The origin is what the last `.ORIG` asked for before anything was placed; a later `.ORIG`
can only restate the address that is reached anyway. Sizes are those of the first pass, each in the
scope that its statement has there. The table holds the predefined symbols and the labels, and
nothing else.
-/

namespace LittleComputer

open Outcome

/-- The labels of statements, in their order. -/
def Statement.labels (statements : List Statement) : List Text := statements.filterMap (·.label)

theorem Statement.labels_cons (s : Statement) (rest : List Statement) :
    labels (s :: rest) = s.label.toList ++ labels rest := by
  unfold labels
  cases h : s.label with
  | none => rw [List.filterMap_cons_none h]; rfl
  | some name => rw [List.filterMap_cons_some h]; rfl

namespace Survey

variable [Interpreter]

/-- Bytes of a statement that the first pass reaches in the state `v`; its own label is known by
then. -/
def sizeAt (v : Survey) (s : Statement) : Except Fault Nat := do
  let marked ← v.mark s
  (marked.scope s).size s

/-- The address that a statement reached in the state `v` asks for, if it is an `.ORIG`. -/
def originAt? (v : Survey) (s : Statement) : Option Nat :=
  match s.operation with
  | .keyword .orig => ((v.scope s).origin s).toOption.map UInt16.toNat
  | _ => none

/-- Whether a statement reached in the state `v` has a label or a size other than zero. -/
def places (v : Survey) (s : Statement) : Bool :=
  s.label.isSome || (v.sizeAt s).toOption != some 0

/-- What the last `.ORIG` asks for among the statements up to the first that places something;
`base` if there is none. -/
def originFrom (base : Nat) (visits : List (Survey × Statement)) : Nat :=
  let early := visits.take (visits.findIdx (fun visit => visit.1.places visit.2) + 1)
  (early.filterMap fun visit => visit.1.originAt? visit.2).getLast?.getD base

variable {v v' m final : Survey} {s : Statement} {visits : List (Survey × Statement)}
  {sizes : List Nat}

theorem originAt?_of_ne (h : s.operation ≠ .keyword .orig) : v.originAt? s = none := by
  unfold originAt?
  split
  · exact absurd ‹_› h
  · rfl

theorem originAt?_orig {origin : UInt16} (h : s.operation = .keyword .orig)
    (horigin : (v.scope s).origin s = .ok origin) : v.originAt? s = some origin.toNat := by
  simp [originAt?, h, horigin, Except.toOption]

theorem originFrom_cons_places (base : Nat) (rest : List (Survey × Statement))
    (h : v.places s = true) : originFrom base ((v, s) :: rest) = (v.originAt? s).getD base := by
  have hfirst : ((v, s) :: rest).findIdx (fun visit => visit.1.places visit.2) = 0 := by
    rw [List.findIdx_cons, h]
    rfl
  unfold originFrom
  rw [hfirst]
  cases horigin : v.originAt? s with
  | none => simp [horigin]
  | some o => simp [horigin]

theorem originFrom_cons_of_not_places (base : Nat) (rest : List (Survey × Statement))
    (h : v.places s = false) :
    originFrom base ((v, s) :: rest) = originFrom ((v.originAt? s).getD base) rest := by
  have hfirst : ((v, s) :: rest).findIdx (fun visit => visit.1.places visit.2) =
      rest.findIdx (fun visit => visit.1.places visit.2) + 1 := by
    rw [List.findIdx_cons, h]
    rfl
  unfold originFrom
  rw [hfirst]
  cases horigin : v.originAt? s with
  | none => simp [horigin]
  | some o => simp [horigin, List.getLast?_cons]

/-! ## One step -/

theorem even_size {scope : Scope} {size : Nat} (h : scope.size s = .ok size) :
    size % wordSize = 0 := by
  unfold Scope.size at h
  split at h
  · cases h; rfl
  · cases h; rfl
  · cases h; rfl
  · obtain ⟨count, -, rfl⟩ := map_eq_ok.mp h
    exact Nat.mul_mod_right wordSize count
  · obtain ⟨words, -, rfl⟩ := map_eq_ok.mp h
    exact Nat.mul_mod_right wordSize _
  · cases h; rfl

/-- Where the label of a statement goes: to the address that is reached, unless an `.ORIG` can still
move the origin. -/
theorem address_of_mark (h : v.mark s = .ok m) :
    m.locator.address =
        (if v.locator.placed then v.locator.address else (v.originAt? s).getD v.locator.address) ∧
      m.locator.placed = (v.locator.placed || s.label.isSome) := by
  obtain ⟨harrive, -⟩ := arrive_of_mark h
  obtain ⟨mid, hmid, hlabel⟩ := Scope.arrive_eq_ok.mp harrive
  have hrelocated : mid.address =
      (if v.locator.placed then v.locator.address else (v.originAt? s).getD v.locator.address) ∧
      mid.placed = v.locator.placed := by
    obtain ⟨hop, rfl⟩ | ⟨hop, origin, horigin, hset⟩ := Scope.relocate_eq_ok.mp hmid
    · rw [originAt?_of_ne hop]
      simp
    · rw [originAt?_orig hop horigin]
      obtain ⟨-, ⟨hp, -, rfl⟩ | ⟨hp, rfl⟩⟩ := Locator.setOrigin_eq_ok.mp hset
      · simp [hp]
      · simp [hp]
  obtain ⟨hnone, hloc⟩ | ⟨hsome, -, hloc⟩ := hlabel
  · rw [hloc, hnone]
    simpa using hrelocated
  · rw [hloc]
    have hlabelled : s.label.isSome = true := Option.isSome_iff_ne_none.mpr hsome
    simpa [hlabelled] using hrelocated.1

/-- All that a step does to the locator. -/
theorem layout_of_step (h : v.step s = (v', none)) :
    ∃ m size, v.mark s = .ok m ∧ v.sizeAt s = .ok size ∧
      v'.locator.address = m.locator.address + size ∧
      v'.locator.placed = (v.locator.placed || v.places s) := by
  obtain ⟨m, hmark, hpass⟩ := step_eq_none.mp h
  obtain ⟨size, hsize, hadvance, -⟩ := pass_eq_ok.mp hpass
  have hat : v.sizeAt s = .ok size := bind_eq_ok.mpr ⟨m, hmark, hsize⟩
  have hplaced := (address_of_mark hmark).2
  refine ⟨m, size, hmark, hat, ?_⟩
  unfold places
  rw [hat]
  obtain ⟨rfl, hloc⟩ | ⟨hne, -, hloc⟩ := Locator.advance_eq_ok.mp hadvance
  · rw [hloc]
    simp [hplaced, Except.toOption]
  · rw [hloc]
    simp [Except.toOption, hne]

theorem aligned_of_arrive {scope : Scope} {loc loc' : Locator} (h : scope.arrive loc s = .ok loc')
    (heven : loc.address % wordSize = 0) : loc'.address % wordSize = 0 := by
  obtain ⟨mid, hmid, hlabel⟩ := Scope.arrive_eq_ok.mp h
  have hmid' : mid.address % wordSize = 0 := by
    obtain ⟨-, rfl⟩ | ⟨-, origin, -, hset⟩ := Scope.relocate_eq_ok.mp hmid
    · exact heven
    · obtain ⟨horigin, ⟨-, -, rfl⟩ | ⟨-, rfl⟩⟩ := Locator.setOrigin_eq_ok.mp hset
      · exact heven
      · exact horigin
  obtain ⟨-, rfl⟩ | ⟨-, -, rfl⟩ := hlabel
  · exact hmid'
  · exact hmid'

theorem aligned_of_step (h : v.step s = (v', none)) (heven : v.locator.address % wordSize = 0) :
    v'.locator.address % wordSize = 0 := by
  obtain ⟨m, size, hmark, hat, haddress, -⟩ := layout_of_step h
  have hm := aligned_of_arrive (arrive_of_mark hmark).1 heven
  obtain ⟨m', -, hsize⟩ := bind_eq_ok.mp hat
  have hs := even_size hsize
  rw [haddress, Nat.add_mod, hm, hs]
  rfl

/-! ## Whole runs -/

/-- Labels stand at even addresses. -/
theorem aligned_of_runs {symbols : SymbolTable} {statements : List Statement}
    (h : Walk.Runs step (start symbols) statements visits final) {visit : Survey × Statement}
    (hmem : visit ∈ visits) (hm : visit.1.mark visit.2 = .ok m) :
    m.locator.address % wordSize = 0 := by
  have hvisit := h.keeps_at (p := fun v => v.locator.address % wordSize = 0)
    (fun _ _ _ => aligned_of_step) even_defaultOrigin hmem
  exact aligned_of_arrive (arrive_of_mark hm).1 hvisit

/-- Every statement that was passed has a size. -/
theorem sizes_of_steps (h : Walk.Steps step v visits final) :
    ∃ sizes : List Nat, visits.map (fun visit => visit.1.sizeAt visit.2) = sizes.map .ok := by
  induction h with
  | nil v => exact ⟨[], rfl⟩
  | cons hstep hrest ih =>
    obtain ⟨sizes, hsizes⟩ := ih
    obtain ⟨-, size, -, hsize, -⟩ := layout_of_step hstep
    exact ⟨size :: sizes, by rw [List.map_cons, List.map_cons, hsizes, hsize]⟩

theorem sizes_of_cons {rest : List (Survey × Statement)} {size : Nat}
    (hsize : v.sizeAt s = .ok size)
    (h : ((v, s) :: rest).map (fun visit => visit.1.sizeAt visit.2) = sizes.map .ok) :
    ∃ later, sizes = size :: later ∧
      rest.map (fun visit => visit.1.sizeAt visit.2) = later.map .ok := by
  obtain ⟨first, later, rfl, hfirst, hlater⟩ := List.map_eq_cons_iff.mp h.symm
  obtain rfl : size = first := Except.ok.inj (hsize.symm.trans hfirst.symm)
  exact ⟨later, rfl, hlater.symm⟩

/-- Once something is placed, a statement arrives behind all statements before it. -/
theorem address_of_steps_placed (h : Walk.Steps step v visits final)
    (hsizes : visits.map (fun visit => visit.1.sizeAt visit.2) = sizes.map .ok)
    (hp : v.locator.placed = true) {k : Nat} {w : Survey} (hk : visits[k]? = some (w, s))
    (hm : w.mark s = .ok m) : m.locator.address = v.locator.address + (sizes.take k).sum := by
  induction h generalizing k sizes with
  | nil v => cases hk
  | @cons v v' final s₀ rest hstep hrest ih =>
    obtain ⟨m₀, size, hmark, hsize, haddress, hplaced⟩ := layout_of_step hstep
    obtain ⟨later, rfl, hlater⟩ := sizes_of_cons hsize hsizes
    have hm₀ : m₀.locator.address = v.locator.address := by
      rw [(address_of_mark hmark).1, if_pos hp]
    cases k with
    | zero =>
      cases hk
      cases hm.symm.trans hmark
      simpa using hm₀
    | succ k =>
      have hp' : v'.locator.placed = true := by rw [hplaced, hp, Bool.true_or]
      rw [ih hlater hp' hk, haddress, hm₀, List.take_succ_cons, List.sum_cons]
      omega

/-- A statement that places something arrives at the origin plus the sizes of the statements before
it. -/
theorem address_of_steps (h : Walk.Steps step v visits final)
    (hsizes : visits.map (fun visit => visit.1.sizeAt visit.2) = sizes.map .ok)
    (hp : v.locator.placed = false) {k : Nat} {w : Survey} (hk : visits[k]? = some (w, s))
    (hplaces : w.places s = true) (hm : w.mark s = .ok m) :
    m.locator.address = originFrom v.locator.address visits + (sizes.take k).sum := by
  induction h generalizing k sizes with
  | nil v => cases hk
  | @cons v v' final s₀ rest hstep hrest ih =>
    obtain ⟨m₀, size, hmark, hsize, haddress, hplaced⟩ := layout_of_step hstep
    obtain ⟨later, rfl, hlater⟩ := sizes_of_cons hsize hsizes
    have hm₀ : m₀.locator.address = (v.originAt? s₀).getD v.locator.address := by
      rw [(address_of_mark hmark).1, if_neg (by simp [hp])]
    rw [hp, Bool.false_or] at hplaced
    cases k with
    | zero =>
      cases hk
      cases hm.symm.trans hmark
      rw [originFrom_cons_places _ _ hplaces, hm₀]
      simp
    | succ k =>
      rw [List.take_succ_cons, List.sum_cons]
      cases hfree : v.places s₀ with
      | true =>
        -- the origin is settled here, and the rest of the run is one of a placed locator
        rw [hfree] at hplaced
        rw [address_of_steps_placed hrest hlater hplaced hk hm, haddress, hm₀,
          originFrom_cons_places _ _ hfree]
        omega
      | false =>
        rw [hfree] at hplaced
        have hzero : size = 0 := by
          unfold places at hfree
          rw [hsize] at hfree
          simpa [Except.toOption] using (Bool.or_eq_false_iff.mp hfree).2
        rw [hzero, Nat.add_zero, hm₀] at haddress
        rw [ih hlater hplaced hk, haddress, originFrom_cons_of_not_places _ _ hfree, hzero,
          Nat.zero_add]

/-! ## The table -/

omit [Interpreter] in
theorem mem_of_defines {address : Nat} {t u : SymbolTable} (h : Defines s address t u) :
    (∀ name ∈ s.label, name.upper ∉ t.addresses) ∧
      ∀ key, key ∈ u.addresses ↔
        key ∈ t.addresses ∨ ∃ name ∈ s.label, name.upper = key := by
  unfold Defines at h
  cases hlabel : s.label with
  | none =>
    rw [hlabel] at h
    simp only at h
    subst h
    simp
  | some name =>
    rw [hlabel] at h
    obtain ⟨hnew, hmem⟩ := SymbolTable.mem_of_define h
    refine ⟨?_, fun key => ?_⟩
    · rintro _ ⟨⟩
      exact hnew
    · rw [hmem]
      simp

/-- A run adds the labels of its statements to the table. -/
theorem mem_of_steps (h : Walk.Steps step v visits final) (key : String) :
    key ∈ final.symbols.addresses ↔ key ∈ v.symbols.addresses ∨
      ∃ name ∈ Statement.labels (visits.map (·.2)), name.upper = key := by
  induction h with
  | nil v => simp [Statement.labels]
  | cons hstep hrest ih =>
    obtain ⟨m, -, hdefines⟩ := defines_of_step hstep
    rw [ih, (mem_of_defines hdefines).2, List.map_cons, Statement.labels_cons]
    simp only [List.mem_append, Option.mem_toList, Option.mem_def, or_and_right, exists_or,
      or_assoc]

/-- All of these labels are new and different. -/
theorem labels_of_steps (h : Walk.Steps step v visits final) :
    ((Statement.labels (visits.map (·.2))).map Text.upper).Nodup ∧
      ∀ name ∈ Statement.labels (visits.map (·.2)), name.upper ∉ v.symbols.addresses := by
  induction h with
  | nil v => exact ⟨List.nodup_nil, nofun⟩
  | @cons v v' final s rest hstep hrest ih =>
    obtain ⟨hnodup, hnew⟩ := ih
    obtain ⟨m, -, hdefines⟩ := defines_of_step hstep
    obtain ⟨hfresh, hmem⟩ := mem_of_defines hdefines
    have holder : ∀ name ∈ Statement.labels (rest.map (·.2)),
        name.upper ∉ v.symbols.addresses :=
      fun name hname hold => hnew name hname ((hmem _).mpr (.inl hold))
    rw [List.map_cons, Statement.labels_cons]
    cases hlabel : s.label with
    | none => exact ⟨hnodup, holder⟩
    | some name =>
      rw [hlabel] at hfresh hmem
      refine ⟨List.nodup_cons.mpr ⟨?_, hnodup⟩, ?_⟩
      · intro hagain
        obtain ⟨later, hlater, hsame⟩ := List.mem_map.mp hagain
        exact hnew later hlater ((hmem _).mpr (.inr ⟨name, rfl, hsame.symm⟩))
      · intro other hother
        rcases List.mem_cons.mp hother with rfl | hother
        · exact hfresh _ rfl
        · exact holder other hother

end Survey

/-- In a listing a label is the same as its key in the table. -/
theorem Listing.mem_labels_iff {implicitLabels : Bool} {lines : List SourceLine} {key : String} :
    (key : Text) ∈ Statement.labels
      (Statement.upToEnd (ofLines implicitLabels lines).statements) ↔
      ∃ name ∈ Statement.labels (Statement.upToEnd (ofLines implicitLabels lines).statements),
        name.upper = key := by
  have hupper : ∀ name ∈ Statement.labels
      (Statement.upToEnd (ofLines implicitLabels lines).statements),
      (name.upper : Text) = name := by
    intro name hname
    obtain ⟨s, hs, hlabel⟩ := List.mem_filterMap.mp hname
    exact upper_label ((Statement.upToEnd_prefix _).subset hs) hlabel
  constructor
  · intro hkey
    exact ⟨key, hkey, Text.ofString_injective (hupper key hkey)⟩
  · rintro ⟨name, hname, rfl⟩
    rw [hupper name hname]
    exact hname

/-- The symbols that a survey starts from are the predefined ones, with their names in
upper case. -/
theorem Assembler.addresses_of_predefined {a : Assembler} {seeded : SymbolTable}
    (h : SymbolTable.empty.defineAll a.predefined.toList = .ok seeded) (key : String)
    (address : UInt16) :
    seeded.addresses[key]? = some address ↔
      ∃ name : String, a.predefined.addresses[name]? = some address ∧
        (name : Text).upper = key := by
  rw [SymbolTable.addresses_of_defineAll h]
  simp [SymbolTable.empty, SymbolTable.toList, Std.ExtTreeMap.mem_toList_iff_getElem?_eq_some]

theorem Assembler.mem_predefined {a : Assembler} {seeded : SymbolTable}
    (h : SymbolTable.empty.defineAll a.predefined.toList = .ok seeded) (key : String) :
    key ∈ seeded.addresses ↔
      ∃ name ∈ a.predefined.addresses, Text.upper (name : Text) = key := by
  simp only [Std.ExtTreeMap.mem_iff_isSome_getElem?, Option.isSome_iff_exists,
    addresses_of_predefined h]
  constructor
  · rintro ⟨address, name, hname, hkey⟩
    exact ⟨name, ⟨address, hname⟩, hkey⟩
  · rintro ⟨name, ⟨address, hname⟩, hkey⟩
    exact ⟨address, name, hname, hkey⟩

/-- The layout of a survey that goes through. It visits the statements up to the first `.END`. The
names in its table are the predefined ones in upper case and the labels of these statements; the
labels are different from each other and from the predefined names, and predefined symbols keep
their addresses. A label is the origin, which the last `.ORIG` sets at or before the first statement
with a label or a size, plus the sizes of the statements before it; and that is an even address. -/
theorem survey_lays_out [Interpreter] (a : Assembler) (implicitLabels : Bool)
    (lines : List SourceLine)
    (symbols : SymbolTable)
    (hsurvey : (a.survey (Listing.ofLines implicitLabels lines).statements).result =
      (symbols, none)) :
    ∃ seeded, SymbolTable.empty.defineAll a.predefined.toList = .ok seeded ∧
      let statements := (Listing.ofLines implicitLabels lines).statements
      let visits := (Survey.walk seeded statements).visits
      let labels := Statement.labels (Statement.upToEnd statements)
      visits.map (·.2) = Statement.upToEnd statements ∧
      (∀ key, key ∈ symbols.addresses ↔
        (∃ name ∈ a.predefined.addresses, Text.upper (name : Text) = key) ∨
          (key : Text) ∈ labels) ∧
      labels.Nodup ∧
      (∀ name ∈ a.predefined.addresses, (Text.upper (name : Text) : Text) ∉ labels) ∧
      (∀ (name : String) (address : UInt16), a.predefined.addresses[name]? = some address →
        symbols.lookup? name = some address) ∧
      ∃ sizes : List Nat, visits.map (fun visit => visit.1.sizeAt visit.2) = sizes.map .ok ∧
        ∀ (k : Nat) (v : Survey) (s : Statement) (name : Text), visits[k]? = some (v, s) →
          s.label = some name →
          ∃ address, symbols.lookup? name = some address ∧
            address.toNat = Survey.originFrom defaultOrigin.toNat visits + (sizes.take k).sum ∧
            address.toNat % 2 = 0 ∧ address.toNat < 0x10000 := by
  obtain ⟨seeded, hdef, hrun, rfl⟩ := Assembler.runs_of_survey hsurvey
  have hsteps := hrun.steps
  have hlabels := Survey.labels_of_steps hsteps
  rw [hrun.visited] at hlabels
  refine ⟨seeded, hdef, hrun.visited, fun key => ?_, ?_, fun name hname hlabel => ?_,
    fun name address h => ?_, ?_⟩
  · rw [Survey.mem_of_steps hsteps, hrun.visited, Listing.mem_labels_iff]
    exact or_congr_left (Assembler.mem_predefined hdef key)
  · exact List.Pairwise.of_map Text.upper (fun _ _ hne heq => hne (congrArg Text.upper heq))
      hlabels.1
  · obtain ⟨label, hmem, hkey⟩ := Listing.mem_labels_iff.mp hlabel
    refine hlabels.2 label hmem ?_
    rw [hkey]
    exact (Assembler.mem_predefined hdef _).mpr ⟨name, hname, rfl⟩
  · exact Survey.within_of_runs hrun _ _
      ((Assembler.addresses_of_predefined hdef _ _).mpr ⟨name, h, rfl⟩)
  · obtain ⟨sizes, hsizes⟩ := Survey.sizes_of_steps hsteps
    refine ⟨sizes, hsizes, fun k v s name hk hname => ?_⟩
    have hvisit := List.mem_of_getElem? hk
    obtain ⟨m, hmark, hlimit, haddress⟩ := Survey.label_of_runs hrun hvisit hname
    have hplaces : v.places s = true := by
      unfold Survey.places
      rw [hname]
      rfl
    have hlayout := Survey.address_of_steps hsteps hsizes rfl hk hplaces hmark
    have heven := Survey.aligned_of_runs hrun hvisit hmark
    have hnat : (UInt16.ofNat m.locator.address).toNat = m.locator.address :=
      UInt16.toNat_ofNat_of_lt' hlimit
    refine ⟨_, haddress, ?_, ?_, UInt16.toNat_lt _⟩
    · rw [hnat]
      exact hlayout
    · rw [hnat]
      exact heven

/-- A source that moves the origin twice, reserves nothing before that, and restates the address
later. -/
def restatingLines : List SourceLine :=
  SourceLine.ofTexts [".BLKW 0", ".ORIG x4000", "BEGIN: .ORIG x5000", ".BLKW $(SIZE)",
    ".ORIG $(BEGIN + 2 * SIZE)", "TEXT: .STRINGZ \"ab\"", "DONE: .END"]

def sizingAssembler : Assembler := Assembler.predefine {} "size" 3

/-- In the source that restates the address the label of `.END` is `x500C`, the origin and the sizes
of six statements. -/
theorem survey_lays_out_restating :
    (sizingAssembler.survey (Listing.ofLines false restatingLines).statements).result.2 = none ∧
      (sizingAssembler.survey (Listing.ofLines false restatingLines).statements).result.1.lookup?
        "DONE" = some 0x500C ∧
      ∃ seeded, SymbolTable.empty.defineAll sizingAssembler.predefined.toList = .ok seeded ∧
        let visits := (Survey.walk seeded (Listing.ofLines false restatingLines).statements).visits
        ∃ sizes : List Nat, visits.map (fun visit => visit.1.sizeAt visit.2) = sizes.map .ok ∧
          Survey.originFrom defaultOrigin.toNat visits + (sizes.take 6).sum = 0x500C := by
  have hsurvey : (sizingAssembler.survey
      (Listing.ofLines false restatingLines).statements).result.2 = none := by decide +kernel
  have hdone : (sizingAssembler.survey
      (Listing.ofLines false restatingLines).statements).result.1.lookup? "DONE" = some 0x500C := by
    decide +kernel
  have hend : (Statement.upToEnd (Listing.ofLines false restatingLines).statements)[6]?.map
      (·.label) = some (some ("DONE" : Text)) := by decide +kernel
  refine ⟨hsurvey, hdone, ?_⟩
  obtain ⟨seeded, hdef, hvisited, -, -, -, -, sizes, hsizes, hlabels⟩ :=
    survey_lays_out sizingAssembler false restatingLines _ (Assembler.survey_eq hsurvey)
  refine ⟨seeded, hdef, sizes, hsizes, ?_⟩
  rw [← hvisited, List.getElem?_map, Option.map_map] at hend
  obtain ⟨⟨v, s⟩, hvisit, hlabel⟩ := Option.map_eq_some_iff.mp hend
  obtain ⟨address, haddress, hsum, -⟩ := hlabels 6 v s _ hvisit hlabel
  have hsame : (0x500C : UInt16) = address := Option.some.inj (hdone.symm.trans haddress)
  rw [← hsum, ← hsame]
  rfl

end LittleComputer
