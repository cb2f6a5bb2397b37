import LittleComputer.Expression.Evaluation
import LittleComputer.Proofs.Interpreter

/-!
# More meanings keep a value

Closing a text replaces each free name by the integer its surroundings give it. If other
surroundings give every one of these names the same integer, whatever they say of further names, the
closed text is the same one, and so is all that it does. Nothing is said of a text that could not be
closed: a name that was without meaning may have one in the larger surroundings.
-/

namespace LittleComputer.Expression

/-- A result that is there stays what it is. -/
def Kept {α : Type} (x y : Option α) : Prop := ∀ v, x = some v → y = some v

namespace Kept

variable {α β : Type}

theorem refl (x : Option α) : Kept x x := fun _ h => h

theorem bind {x y : Option α} {f g : α → Option β} (hx : Kept x y)
    (hf : ∀ v, Kept (f v) (g v)) :
    Kept (x >>= f) (y >>= g) := by
  intro w hw
  obtain ⟨v, hv, hw⟩ := Option.bind_eq_some_iff.mp hw
  exact Option.bind_eq_some_iff.mpr ⟨v, hx v hv, hf v w hw⟩

/-- The usual end of a closing: a part, and what is built from it. -/
theorem build {x y : Option α} (hx : Kept x y) (f : α → β) :
    Kept (x >>= fun v => pure (f v)) (y >>= fun v => pure (f v)) :=
  hx.bind fun _ => refl _

theorem map {x y : Option α} (hx : Kept x y) (f : α → β) : Kept (x.map f) (y.map f) := by
  intro w hw
  obtain ⟨v, hv, rfl⟩ := Option.map_eq_some_iff.mp hw
  rw [hx v hv, Option.map_some]

theorem ite {p : Prop} [Decidable p] {x y z w : Option α} (hx : Kept x y) (hz : Kept z w) :
    Kept (if p then x else z) (if p then y else w) := by
  split
  · exact hx
  · exact hz

end Kept

variable {free more : String → Option Int}

mutual

theorem Term.close?_kept (h : ∀ s, Kept (free s) (more s)) (around : Bindings) :
    ∀ t : Term, Kept (t.close? free around) (t.close? more around)
  | .name s => by
    simp only [Term.close?]
    split
    · exact .refl _
    · split
      · exact .refl _
      · exact (h s).map _
  | .bound _ | .builtin _ | .none | .bool _ | .int _ | .float _ _ | .string _ | .bytes _ => by
    simp only [Term.close?]
    exact .refl _
  | .paren t => by
    simp only [Term.close?]
    exact (t.close?_kept h around).build _
  | .tuple items => by
    simp only [Term.close?]
    exact (Term.closeAll?_kept h around items).build _
  | .list items => by
    simp only [Term.close?]
    exact (Term.closeAll?_kept h around items).build _
  | .dict entries => by
    simp only [Term.close?]
    exact (Term.closeEntries?_kept h around entries).build _
  | .unary op t => by
    simp only [Term.close?]
    exact (t.close?_kept h around).build _
  | .binary op l r => by
    simp only [Term.close?]
    exact (l.close?_kept h around).bind fun _ => (r.close?_kept h around).build _
  | .not t => by
    simp only [Term.close?]
    exact (t.close?_kept h around).build _
  | .and l r => by
    simp only [Term.close?]
    exact (l.close?_kept h around).bind fun _ => (r.close?_kept h around).build _
  | .or l r => by
    simp only [Term.close?]
    exact (l.close?_kept h around).bind fun _ => (r.close?_kept h around).build _
  | .conditional c x y => by
    simp only [Term.close?]
    exact (c.close?_kept h around).bind fun _ => (x.close?_kept h around).bind fun _ =>
      (y.close?_kept h around).build _
  | .field t s => by
    simp only [Term.close?]
    exact (t.close?_kept h around).build _
  | .index t i => by
    simp only [Term.close?]
    exact (t.close?_kept h around).bind fun _ => (i.close?_kept h around).build _
  | .slice t low high step => by
    simp only [Term.close?]
    exact (t.close?_kept h around).bind fun _ => (low.close?_kept h around).bind fun _ =>
      (high.close?_kept h around).bind fun _ => (step.close?_kept h around).build _
  | .call f as => by
    simp only [Term.close?]
    exact .ite ((f.close?_kept h around).bind fun _ =>
      (Term.closeArguments?_kept h around as).build _)
      (.refl _)
  | .lambda code ps body => by
    simp only [Term.close?]
    exact .ite ((Term.closeParameters?_kept h around ps).bind fun _ =>
      (body.close?_kept h _).build _) (.refl _)
  | .listOf code item cs => by
    simp only [Term.close?]
    exact (item.close?_kept h _).bind fun _ => (Term.closeClauses?_kept h around _ cs).build _
  | .dictOf code k v cs => by
    simp only [Term.close?]
    exact (k.close?_kept h _).bind fun _ => (v.close?_kept h _).bind fun _ =>
      (Term.closeClauses?_kept h around _ cs).build _

theorem Term.closeAll?_kept (h : ∀ s, Kept (free s) (more s)) (around : Bindings) :
    ∀ ts : List Term, Kept (Term.closeAll? free around ts) (Term.closeAll? more around ts)
  | [] => by simp only [Term.closeAll?]; exact .refl _
  | t :: rest => by
    simp only [Term.closeAll?]
    exact (t.close?_kept h around).bind fun _ => (Term.closeAll?_kept h around rest).build _

theorem Term.closeEntries?_kept (h : ∀ s, Kept (free s) (more s)) (around : Bindings) :
    ∀ es : List (Term × Term),
      Kept (Term.closeEntries? free around es) (Term.closeEntries? more around es)
  | [] => by simp only [Term.closeEntries?]; exact .refl _
  | (k, v) :: rest => by
    simp only [Term.closeEntries?]
    exact (k.close?_kept h around).bind fun _ => (v.close?_kept h around).bind fun _ =>
      (Term.closeEntries?_kept h around rest).build _

theorem Term.closeArguments?_kept (h : ∀ s, Kept (free s) (more s)) (around : Bindings) :
    ∀ as : List Argument,
      Kept (Term.closeArguments? free around as) (Term.closeArguments? more around as)
  | [] => by simp only [Term.closeArguments?]; exact .refl _
  | .positional t :: rest => by
    simp only [Term.closeArguments?]
    exact (t.close?_kept h around).bind fun _ => (Term.closeArguments?_kept h around rest).build _
  | .named s t :: rest => by
    simp only [Term.closeArguments?]
    exact (t.close?_kept h around).bind fun _ => (Term.closeArguments?_kept h around rest).build _
  | .spread t :: rest => by
    simp only [Term.closeArguments?]
    exact (t.close?_kept h around).bind fun _ => (Term.closeArguments?_kept h around rest).build _
  | .spreadNamed t :: rest => by
    simp only [Term.closeArguments?]
    exact (t.close?_kept h around).bind fun _ => (Term.closeArguments?_kept h around rest).build _

theorem Term.closeParameters?_kept (h : ∀ s, Kept (free s) (more s)) (around : Bindings) :
    ∀ ps : List Parameter,
      Kept (Term.closeParameters? free around ps) (Term.closeParameters? more around ps)
  | [] => by simp only [Term.closeParameters?]; exact .refl _
  | .required s :: rest => by
    simp only [Term.closeParameters?]
    exact (Term.closeParameters?_kept h around rest).build _
  | .optional s t :: rest => by
    simp only [Term.closeParameters?]
    exact (t.close?_kept h around).bind fun _ => (Term.closeParameters?_kept h around rest).build _
  | .gather s :: more => by
    simp only [Term.closeParameters?]
    exact (Term.closeParameters?_kept h around more).build _
  | .gatherNamed s :: more => by
    simp only [Term.closeParameters?]
    exact (Term.closeParameters?_kept h around more).build _

theorem Term.closeClauses?_kept (h : ∀ s, Kept (free s) (more s)) (outer inner : Bindings) :
    ∀ cs : List Clause,
      Kept (Term.closeClauses? free outer inner cs) (Term.closeClauses? more outer inner cs)
  | [] => by simp only [Term.closeClauses?]; exact .refl _
  | .each target t :: rest => by
    simp only [Term.closeClauses?]
    exact (target.close?_kept h inner).bind fun _ => (t.close?_kept h outer).bind fun _ =>
      (Term.closeClauses?_kept h inner inner rest).build _
  | .given t :: rest => by
    simp only [Term.closeClauses?]
    exact (t.close?_kept h outer).bind fun _ => (Term.closeClauses?_kept h inner inner rest).build _

theorem Target.close?_kept (h : ∀ s, Kept (free s) (more s)) (around : Bindings) :
    ∀ t : Target, Kept (t.close? free around) (t.close? more around)
  | .name s => by simp only [Target.close?]; exact .refl _
  | .bound v => by simp only [Target.close?]; exact .refl _
  | .items targets => by
    simp only [Target.close?]
    exact (Target.closeAll?_kept h around targets).build _
  | .index t i => by
    simp only [Target.close?]
    exact (t.close?_kept h around).bind fun _ => (i.close?_kept h around).build _
  | .field t s => by
    simp only [Target.close?]
    exact (t.close?_kept h around).build _

theorem Target.closeAll?_kept (h : ∀ s, Kept (free s) (more s)) (around : Bindings) :
    ∀ ts : List Target, Kept (Target.closeAll? free around ts) (Target.closeAll? more around ts)
  | [] => by simp only [Target.closeAll?]; exact .refl _
  | t :: rest => by
    simp only [Target.closeAll?]
    exact (t.close?_kept h around).bind fun _ => (Target.closeAll?_kept h around rest).build _

end

mutual

theorem Statement.close?_kept (h : ∀ s, Kept (free s) (more s)) (around : Bindings)
    (place : Place) :
    ∀ s : Statement, Kept (s.close? free around place) (s.close? more around place)
  | .assign target t => by
    simp only [Statement.close?]
    exact (target.close?_kept h around).bind fun _ => (t.close?_kept h around).build _
  | .update op target t => by
    simp only [Statement.close?]
    exact (target.close?_kept h around).bind fun _ => (t.close?_kept h around).build _
  | .evaluate t => by
    simp only [Statement.close?]
    exact (t.close?_kept h around).build _
  | .leave | .again => by
    simp only [Statement.close?]
    exact .refl _
  | .give t => by
    simp only [Statement.close?]
    exact .ite (.refl _) ((t.close?_kept h around).build _)
  | .choose test yes no => by
    simp only [Statement.close?]
    exact .ite (.refl _) ((test.close?_kept h around).bind fun _ =>
      (Statement.closeAll?_kept h around place yes).bind fun _ =>
        (Statement.closeAll?_kept h around place no).build _)
  | .each target source body => by
    simp only [Statement.close?]
    exact .ite (.refl _) ((target.close?_kept h around).bind fun _ =>
      (source.close?_kept h around).bind fun _ =>
        (Statement.closeAll?_kept h around .loop body).build _)
  | .define target code name ps body => by
    simp only [Statement.close?]
    exact .ite ((target.close?_kept h around).bind fun _ =>
      (Term.closeParameters?_kept h around ps).bind fun _ =>
        (Statement.closeAll?_kept h _ .function body).build _) (.refl _)

theorem Statement.closeAll?_kept (h : ∀ s, Kept (free s) (more s)) (around : Bindings)
    (place : Place) : ∀ ss : List Statement,
      Kept (Statement.closeAll? free around place ss) (Statement.closeAll? more around place ss)
  | [] => by simp only [Statement.closeAll?]; exact .refl _
  | s :: rest => by
    simp only [Statement.closeAll?]
    exact (s.close?_kept h around place).bind fun _ =>
      (Statement.closeAll?_kept h around place rest).build _

end

theorem Statement.closeText?_kept (h : ∀ s, Kept (free s) (more s)) (text : List Statement) :
    Kept (Statement.closeText? free text) (Statement.closeText? more text) := by
  unfold Statement.closeText?
  exact .ite (Statement.closeAll?_kept h _ _ text) (.refl _)

theorem action?_kept (h : ∀ s, Kept (free s) (more s)) (text : Text) :
    Kept (action? free text) (action? more text) := by
  unfold action?
  refine (Kept.refl _).bind fun tokens => (Kept.refl _).bind fun statements => ?_
  exact (Statement.closeText?_kept h statements).bind fun _ => .refl _

/-- Only the closing of a text looks at the surroundings, so nothing has to be said of its run. -/
theorem execute_of_moreNames (h : MoreNames free more) {text : Text}
    (hrun : execute free text ≠ .failure) : execute more text = execute free text := by
  unfold execute at hrun ⊢
  cases haction : action? free text with
  | none => simp [haction] at hrun
  | some action => rw [action?_kept h.kept text action haction]

instance : Interpreter.Steady := ⟨execute_of_moreNames⟩

end LittleComputer.Expression
