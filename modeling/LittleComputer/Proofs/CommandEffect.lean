import LittleComputer.Command.Run
import LittleComputer.Expression.Evaluation
import LittleComputer.Proofs.ObjectFile

/-!
# What the command leaves behind

The command writes one file, and it does so after everything that can go wrong with a source.
Whatever fails before leaves every file as it was and makes the command exit with a status other
than zero. Once the assembly has succeeded, the host decides: it may refuse to make the file, to
take all of it, to close it or to take the report, and the exit is zero exactly if it does none of
that. Then the object file of the assembled program stands where its name leads, it reads back as
the program, and no other file is different from before.
-/

namespace LittleComputer.Command

/-! ## Files -/

namespace Host

variable {h : Host} {path : Path} {name content : Text} {bytes : List UInt8}

theorem lookup_replaced_self (h : Host) (path : Path) (bytes : List UInt8) :
    (h.replaced path bytes).files.lookup path = some bytes :=
  List.lookup_cons_self

/-- Only the path that is written to has another content. -/
theorem lookup_replaced_of_ne {other : Path} (hother : other ≠ path) :
    (h.replaced path bytes).files.lookup other = h.files.lookup other := by
  have hkept : ∀ files : List (Path × List UInt8),
      (files.filter fun file => file.1 != path).lookup other = files.lookup other := by
    intro files
    induction files with
    | nil => rfl
    | cons file rest ih =>
      obtain ⟨p, old⟩ := file
      by_cases hp : p = path
      · have hmiss : (other == p) = false := by
          rw [hp]
          exact beq_eq_false_iff_ne.mpr hother
        rw [List.filter_cons_of_neg (by simpa using hp), List.lookup_cons, hmiss, ih]
      · rw [List.filter_cons_of_pos (by simpa using hp), List.lookup_cons, List.lookup_cons, ih]
  unfold replaced
  rw [List.lookup_cons, beq_eq_false_iff_ne.mpr hother]
  exact hkept h.files

theorem entry_replaced_self (h : Host) (path : Path) (bytes : List UInt8) :
    (h.replaced path bytes).entry path = .file bytes := by
  unfold entry
  rw [lookup_replaced_self]

/-- No way is lost by writing a file. -/
theorem leads_replaced {p : Path} (hleads : h.leads p = true) :
    (h.replaced path bytes).leads p = true := by
  unfold leads at hleads ⊢
  rw [Bool.or_eq_true] at hleads ⊢
  refine hleads.imp_right fun hfile => ?_
  rw [List.any_eq_true] at hfile ⊢
  obtain ⟨⟨q, old⟩, hq, hprefix⟩ := hfile
  by_cases hsame : q = path
  · exact ⟨(path, bytes), List.mem_cons_self, by simpa [← hsame] using hprefix⟩
  · have hmem : (q, old) ∈ h.files.filter fun file => file.1 != path :=
      List.mem_filter.mpr ⟨hq, by simpa using hsame⟩
    exact ⟨(q, old), List.mem_cons_of_mem _ hmem, hprefix⟩

/-- Directories stay, since no file takes their place. -/
theorem entry_replaced_directory {p : Path} (hentry : h.entry p = .directory) (hne : p ≠ path) :
    (h.replaced path bytes).entry p = .directory := by
  unfold entry at hentry ⊢
  rw [lookup_replaced_of_ne hne]
  split at hentry
  · cases hentry
  · split at hentry
    · rename_i hleads
      simp only [leads_replaced hleads, if_true]
    · cases hentry

/-- A name that leads to a file leads to the same place once the file is written. -/
theorem follow_replaced {here : Path} {parts : List Text} (hfollow : h.follow here parts = .ok path)
    (hentry : h.entry path.reverse ≠ .directory) :
    (h.replaced path.reverse bytes).follow here parts = .ok path := by
  induction parts generalizing here with
  | nil => exact hfollow
  | cons part rest ih =>
    unfold follow at hfollow ⊢
    split at hfollow
    · rename_i hstay
      rw [if_pos hstay]
      exact ih hfollow
    · rename_i hstay
      rw [if_neg hstay]
      split at hfollow
      · rename_i hup
        rw [if_pos hup]
        exact ih hfollow
      · rename_i hup
        rw [if_neg hup]
        cases hfound : h.entry (part :: here).reverse with
        | directory =>
          have hne : (part :: here).reverse ≠ path.reverse := by
            intro hsame
            rw [hsame] at hfound
            exact hentry hfound
          simp only [hfound] at hfollow
          simp only [entry_replaced_directory hfound hne]
          exact ih hfollow
        | file old =>
          cases rest with
          | nil =>
            simp only [hfound] at hfollow
            cases hfollow
            simp only [entry_replaced_self]
          | cons next more => simp only [hfound, reduceCtorEq] at hfollow
        | missing =>
          cases rest with
          | nil =>
            simp only [hfound] at hfollow
            cases hfollow
            simp only [entry_replaced_self]
          | cons next more => simp only [hfound, reduceCtorEq] at hfollow

theorem resolve_replaced (hresolve : h.resolve name = .ok path)
    (hentry : h.entry path ≠ .directory) :
    (h.replaced path bytes).resolve name = .ok path := by
  unfold resolve at hresolve ⊢
  split at hresolve
  · cases hresolve
  · obtain ⟨here, hfollow, rfl⟩ := Outcome.map_eq_ok.mp hresolve
    exact Outcome.map_eq_ok.mpr ⟨here, follow_replaced hfollow hentry, rfl⟩
  · obtain ⟨here, hfollow, rfl⟩ := Outcome.map_eq_ok.mp hresolve
    exact Outcome.map_eq_ok.mpr ⟨here, follow_replaced hfollow hentry, rfl⟩

/-- A file is made where its name leads, and not in place of a directory. -/
theorem resolve_of_place (hplace : h.place name = .ok path) :
    h.resolve name = .ok path ∧ h.entry path ≠ .directory := by
  unfold place at hplace
  split at hplace
  · split at hplace
    · cases hplace
    · obtain ⟨_, -, hnever⟩ := Outcome.bind_eq_ok.mp hplace
      cases hnever
  · split at hplace
    · cases hplace
    · rename_i found hfound
      split at hplace
      · cases hplace
      · rename_i hentry
        cases hplace
        exact ⟨hfound, hentry⟩

/-- What was written can be read under the same name, if the host lets it be read. -/
theorem read_replaced (hplace : h.place name = .ok path) (hopening : h.refusal .opening path = none)
    (hreading : h.refusal .reading path = none) :
    (h.replaced path bytes).read name = .ok (Text.ofBytes bytes) := by
  obtain ⟨hresolve, hentry⟩ := resolve_of_place hplace
  have hopens : (h.replaced path bytes).refusal .opening path = none := hopening
  have hreads : (h.replaced path bytes).refusal .reading path = none := hreading
  unfold read
  simp only [resolve_replaced hresolve hentry, entry_replaced_self, hopens, hreads]

end Host

/-- The text is taken as a whole. -/
def Limit.Admits (limit : Option Limit) (t : Text) : Prop :=
  ∀ l, limit = some l → t.toBytes.length ≤ l.bytes

theorem Limit.emit_of_admits {limit : Option Limit} {t : Text} (h : Limit.Admits limit t) :
    Limit.emit limit t = (t.toBytes, none) := by
  unfold Limit.emit Emission.ofText
  cases limit with
  | none => rfl
  | some l => simp only [Option.map_some, if_pos (h l rfl), Option.bind_none]

/-- Of a text that is too long a part is taken, and there is a fault. -/
theorem Limit.emit_of_not_admits {limit : Option Limit} {t : Text} (h : ¬ Limit.Admits limit t) :
    ∃ written fault, Limit.emit limit t = (written, some fault) ∧ written <+: t.toBytes := by
  unfold Limit.Admits at h
  cases limit with
  | none => exact absurd (fun l hl => nomatch hl) h
  | some l =>
    have hlong : ¬ t.toBytes.length ≤ l.bytes := fun hfits => h fun l' hl' => by
      cases hl'
      exact hfits
    refine ⟨t.toBytes.take l.bytes, l.fault, ?_, List.take_prefix _ _⟩
    unfold Limit.emit Emission.ofText
    simp only [Option.map_some, if_neg hlong, Option.bind_some]

namespace Host

/-- The host makes a file at the path, takes all of its content and closes it. -/
structure Stores (h : Host) (path : Path) (content : Text) : Prop where
  creating : h.refusal .creating path = none
  fits : Limit.Admits (h.room path) content
  closing : h.refusal .closing path = none

/-- All that storing a file can do: nothing is made, the file is made and left with a part of its
content or unclosed, or all is well. Only the last has no fault. -/
theorem store_cases (h : Host) (name content : Text) :
    (h.store name content).1 = h ∧ (h.store name content).2 ≠ none ∧
      (∀ path, h.place name = .ok path → ¬ h.Stores path content) ∨
    ∃ path written, h.place name = .ok path ∧ written <+: content.toBytes ∧
      (h.store name content).1 = h.replaced path written ∧
      ((h.store name content).2 = none ↔ h.Stores path content) ∧
      (h.Stores path content → written = content.toBytes) := by
  cases hplace : h.place name with
  | error fault =>
    have hstore : h.store name content = (h, some ⟨.creating, name, fault⟩) := by
      simp only [store, hplace]
    rw [hstore]
    exact .inl ⟨rfl, nofun, nofun⟩
  | ok path =>
    cases hcreating : h.refusal .creating path with
    | some fault =>
      have hstore : h.store name content = (h, some ⟨.creating, name, fault⟩) := by
        simp only [store, hplace, hcreating]
      rw [hstore]
      refine .inl ⟨rfl, nofun, fun found hfound hstores => ?_⟩
      cases hfound
      cases hcreating.symm.trans hstores.creating
    | none =>
      refine .inr ⟨path, ?_⟩
      by_cases hfits : Limit.Admits (h.room path) content
      · cases hclosing : h.refusal .closing path with
        | none =>
          have hstore : h.store name content = (h.replaced path content.toBytes, none) := by
            simp only [store, hplace, hcreating, Limit.emit_of_admits hfits, hclosing]
          rw [hstore]
          exact ⟨_, rfl, List.prefix_refl _, rfl, ⟨fun _ => ⟨hcreating, hfits, hclosing⟩,
            fun _ => rfl⟩, fun _ => rfl⟩
        | some fault =>
          have hstore : h.store name content =
              (h.replaced path content.toBytes, some ⟨.closing, name, fault⟩) := by
            simp only [store, hplace, hcreating, Limit.emit_of_admits hfits, hclosing]
          have hnot : ¬ h.Stores path content := fun hstores =>
            nomatch hclosing.symm.trans hstores.closing
          rw [hstore]
          exact ⟨_, rfl, List.prefix_refl _, rfl, ⟨nofun, fun hstores => absurd hstores hnot⟩,
            fun _ => rfl⟩
      · obtain ⟨written, fault, hemit, hprefix⟩ := Limit.emit_of_not_admits hfits
        have hstore : h.store name content =
            (h.replaced path written, some ⟨.writing, name, fault⟩) := by
          simp only [store, hplace, hcreating, hemit]
        rw [hstore]
        exact ⟨written, rfl, hprefix, rfl, ⟨nofun, fun hstores => absurd hstores.fits hfits⟩,
          fun hstores => absurd hstores.fits hfits⟩

theorem exit_publish (h : Host) (p : Product) :
    (h.publish p).exit = 0 ↔ Limit.Admits h.console p.report := by
  unfold publish
  by_cases hfits : Limit.Admits h.console p.report
  · rw [Limit.emit_of_admits hfits]
    exact ⟨fun _ => hfits, fun _ => rfl⟩
  · obtain ⟨written, fault, hemit, -⟩ := Limit.emit_of_not_admits hfits
    rw [hemit]
    exact ⟨fun hexit => absurd hexit (show (1 : UInt8) ≠ 0 by decide),
      fun h => absurd h hfits⟩

end Host

/-! ## Runs -/

section Runs

variable [Interpreter]

/-- What stands in the way of an assembly: flags that are rejected, no input file or several, an
input that cannot be opened or read, or a fault at any stage of assembling it. -/
inductive Hindered (arguments : List Text) (h : Host) : Prop
  | flags (fault : OptionFault) (hflags : Options.read {} arguments = .error fault)
  | inputs (options : Options) (names : List Text)
      (hflags : Options.read {} arguments = .ok (options, names)) (hcount : names.length ≠ 1)
  | opening (options : Options) (input : Text) (error : FileError)
      (hflags : Options.read {} arguments = .ok (options, [input]))
      (hread : h.read input = .error error)
  | assembling (options : Options) (input source : Text) (error : Error)
      (hflags : Options.read {} arguments = .ok (options, [input]))
      (hread : h.read input = .ok source)
      (herror : (options.assembler.assemble ⟨source, false⟩).result = .error error)

/-- An assembly that the arguments ask for and that succeeds. -/
structure Assembly (arguments : List Text) (h : Host) where
  options : Options
  input : Text
  source : Text
  program : Program
  flags : Options.read {} arguments = .ok (options, [input])
  content : h.read input = .ok source
  assembled : (options.assembler.assemble ⟨source, false⟩).result = .ok program

namespace Assembly

variable {arguments : List Text} {h : Host}

/-- The name of the object file: what `-o` says, or else the usual one. -/
def output (a : Assembly arguments h) : Text :=
  if a.options.output.isEmpty then objectName a.input else a.options.output

/-- The content of the object file. -/
def object (a : Assembly arguments h) : Text := (Image.ofProgram a.program).text

/-- What is said of the program. -/
def report (a : Assembly arguments h) : Text := Report.text a.program

end Assembly

variable {dump : Program → Text} {arguments : List Text} {h : Host}

theorem hindered_or_assembly (arguments : List Text) (h : Host) :
    Hindered arguments h ∨ Nonempty (Assembly arguments h) := by
  cases hflags : Options.read {} arguments with
  | error fault => exact .inl (.flags fault hflags)
  | ok found =>
    obtain ⟨options, names⟩ := found
    by_cases hcount : names.length = 1
    · obtain ⟨input, rfl⟩ := List.length_eq_one_iff.mp hcount
      cases hread : h.read input with
      | error error => exact .inl (.opening options input error hflags hread)
      | ok source =>
        cases hassembled : (options.assembler.assemble ⟨source, false⟩).result with
        | error error =>
          exact .inl (.assembling options input source error hflags hread hassembled)
        | ok program =>
          exact .inr ⟨⟨options, input, source, program, hflags, hread, hassembled⟩⟩
    · exact .inl (.inputs options names hflags hcount)

omit [Interpreter] in
theorem exit_failure (log who message : Text) : (failure log who message).exit ≠ 0 :=
  show (1 : UInt8) ≠ 0 by decide

omit [Interpreter] in
theorem exit_breakdown (log message : Text) : (breakdown log message).exit ≠ 0 :=
  show (2 : UInt8) ≠ 0 by decide

omit [Interpreter] in
theorem request_eq {options : Options} {input : Text}
    (hflags : Options.read {} arguments = .ok (options, [input])) :
    request arguments =
      .ok ⟨options, input, if options.output.isEmpty then objectName input
        else options.output⟩ := by
  unfold request
  rw [hflags]

/-- Without an assembly nothing is written. -/
theorem run_of_hindered (hhelp : Options.read {} arguments ≠ .error .help)
    (hhindered : Hindered arguments h) :
    (run dump arguments h).1.exit ≠ 0 ∧ (run dump arguments h).2 = h := by
  cases hhindered with
  | flags fault hflags =>
    have hrequest : request arguments =
        .error ⟨2, [], (fault.message?.getD []) ++ ("\n" : Text) ++ usage⟩ := by
      unfold request
      rw [hflags] at hhelp ⊢
      cases fault with
      | help => exact absurd rfl hhelp
      | malformed argument => rfl
      | unknown name => rfl
      | missingValue name => rfl
      | invalidSwitch name value => rfl
      | invalidDefinition value fault => rfl
    unfold run
    rw [hrequest]
    exact ⟨show (2 : UInt8) ≠ 0 by decide, rfl⟩
  | inputs options names hflags hcount =>
    have hrequest : request arguments =
        .error (failure [] "lc3bas"
          (("Expected one input file, got: " : Text) ++ listed names)) := by
      unfold request
      rw [hflags]
      match names, hcount with
      | [], _ => rfl
      | _ :: _ :: _, _ => rfl
    unfold run
    rw [hrequest]
    exact ⟨exit_failure _ _ _, rfl⟩
  | opening options input error hflags hread =>
    unfold run
    simp only [request_eq hflags, hread]
    exact ⟨exit_failure _ _ _, trivial⟩
  | assembling options input source error hflags hread herror =>
    unfold run
    simp only [request_eq hflags, hread, Request.assemble, herror]
    cases error.fault.isCrash with
    | true => exact ⟨exit_breakdown _ _, rfl⟩
    | false => exact ⟨exit_failure _ _ _, rfl⟩

/-- An assembly that succeeds is followed by storing its object file, and that by the report. -/
theorem run_of_assembly (dump : Program → Text) (a : Assembly arguments h) :
    (run dump arguments h).2 = (h.store a.output a.object).1 ∧
    ((run dump arguments h).1.exit = 0 ↔ (h.store a.output a.object).2 = none ∧
      Limit.Admits (h.store a.output a.object).1.console a.report) := by
  unfold run
  simp only [request_eq a.flags, a.content, Request.assemble, a.assembled]
  unfold Assembly.output Assembly.object
  cases h.store (if a.options.output.isEmpty then objectName a.input else a.options.output)
      (Image.ofProgram a.program).text with
  | mk after refused =>
    cases refused with
    | some error => exact ⟨rfl, fun hexit => absurd hexit (exit_failure _ _ _), nofun⟩
    | none =>
      refine ⟨rfl, (after.exit_publish _).trans ?_⟩
      exact (and_iff_right rfl).symm

end Runs

/-- The command leaves no output on failure. If flags are rejected, if there is not exactly one
input, if the input cannot be opened or read or if it cannot be assembled, then it exits with a
status other than zero and every file is as it was. If it exits with zero, the only file that has
changed is the output: it stands where its name leads, holds the bytes of the object file of the
assembled program, which read back as the origin and the words of the program, and is found there
under its name unless the host refuses to have it read. Where an assembly succeeds, the exit is zero
exactly if the host makes the file, takes all of it, closes it and takes the report; and whatever it
refuses, nothing but the output has changed, which holds a part of the object file then. -/
theorem command_writes_object_or_nothing [Interpreter] (dump : Program → Text)
    (arguments : List Text) (h : Host) (hhelp : Options.read {} arguments ≠ .error .help) :
    let exit := (run dump arguments h).1.exit
    let after := (run dump arguments h).2
    (Hindered arguments h → exit ≠ 0 ∧ after = h) ∧
    (exit = 0 → ∃ (a : Assembly arguments h) (path : Path),
      h.place a.output = .ok path ∧
      after.files.lookup path = some a.object.toBytes ∧
      (∀ other, other ≠ path → after.files.lookup other = h.files.lookup other) ∧
      Image.read ⟨Text.ofBytes a.object.toBytes, false⟩ =
        .ok ⟨a.program.origin, a.program.words⟩ ∧
      (h.refusal .opening path = none → h.refusal .reading path = none →
        after.read a.output = .ok (Text.ofBytes a.object.toBytes))) ∧
    ∀ a : Assembly arguments h,
      (exit = 0 ↔ (∃ path, h.place a.output = .ok path ∧ h.Stores path a.object) ∧
        Limit.Admits h.console a.report) ∧
      (after = h ∨ ∃ path written, h.place a.output = .ok path ∧
        written <+: a.object.toBytes ∧
        after.files.lookup path = some written ∧
        ∀ other, other ≠ path → after.files.lookup other = h.files.lookup other) := by
  intro exit after
  refine ⟨run_of_hindered hhelp, fun hexit => ?_, fun a => ?_⟩
  · obtain hhindered | ⟨⟨a⟩⟩ := hindered_or_assembly arguments h
    · exact absurd hexit (run_of_hindered hhelp hhindered).1
    · obtain ⟨hafter, hzero⟩ := run_of_assembly dump a
      have hnone := (hzero.mp hexit).1
      obtain ⟨-, hfault, -⟩ | ⟨path, written, hplace, -, hwritten, hstores, hwhole⟩ :=
        h.store_cases a.output a.object
      · exact absurd hnone hfault
      · have hreplaced : after = h.replaced path a.object.toBytes := by
          rw [← hwhole (hstores.mp hnone), ← hwritten]
          exact hafter
        rw [hreplaced]
        exact ⟨a, path, hplace, h.lookup_replaced_self path _,
          fun other hother => Host.lookup_replaced_of_ne hother,
          Image.read_written (Image.ofProgram a.program), Host.read_replaced hplace⟩
  · obtain ⟨hafter, hzero⟩ := run_of_assembly dump a
    obtain ⟨hsame, hfault, hnot⟩ | ⟨path, written, hplace, hprefix, hwritten, hstores, -⟩ :=
      h.store_cases a.output a.object
    · refine ⟨⟨fun hexit => absurd (hzero.mp hexit).1 hfault, ?_⟩,
        .inl (hafter.trans hsame)⟩
      rintro ⟨⟨path, hplace, hstores⟩, -⟩
      exact absurd hstores (hnot path hplace)
    · have hconsole : (h.store a.output a.object).1.console = h.console := by rw [hwritten]; rfl
      rw [hconsole, hstores] at hzero
      constructor
      · refine hzero.trans (and_congr_left fun _ => ⟨fun h => ⟨path, hplace, h⟩, ?_⟩)
        rintro ⟨found, hfound, h⟩
        cases hplace.symm.trans hfound
        exact h
      · have hreplaced : after = h.replaced path written := hafter.trans hwritten
        rw [hreplaced]
        exact .inr ⟨path, written, hplace, hprefix, h.lookup_replaced_self path _,
          fun other hother => Host.lookup_replaced_of_ne hother⟩

/-- A source in the working directory, and an object file that is out of date in the directory
beside it. -/
def workshop : Host where
  files :=
    [(["home", "src", "clock.asm"], Text.toBytes "START: LEA R1, TICKS\n.FILL START\n.END\n"),
      (["home", "lib", "old.obj"], Text.toBytes "0x3000\n"), (["notes"], Text.toBytes "none")]
  working := ["home", "src"]

/-- Replaces the old object file by way of the parent directory; the source has its name from the
root. -/
def rebuilding : List Text :=
  ["-v=false", "-D", "ticks=0x3006", "-o", "../lib/./old.obj", "/home//src/clock.asm"]

/-- The clock is rebuilt, and the notes stay. -/
theorem command_writes_object_or_nothing_rebuilding :
    let after := (run (fun _ => []) rebuilding workshop).2
    Options.read {} rebuilding ≠ .error .help ∧
    (run (fun _ => []) rebuilding workshop).1.exit = 0 ∧
    ∃ (a : Assembly rebuilding workshop) (path : Path),
      workshop.place a.output = .ok path ∧
      after.files.lookup path = some a.object.toBytes ∧
      (∀ other, other ≠ path → after.files.lookup other = workshop.files.lookup other) ∧
      after.files.lookup [("home" : Text), "lib", "old.obj"] =
        some (Text.toBytes "0x3000\n0xE202\n0x3000\n") := by
  intro after
  have hread : (Options.read {} rebuilding).toBool = true := by decide +kernel
  have hhelp : Options.read {} rebuilding ≠ .error .help := by
    intro hread'
    rw [hread'] at hread
    cases hread
  have hexit : (run (fun _ => []) rebuilding workshop).1.exit = 0 := by decide +kernel
  obtain ⟨-, hzero, -⟩ :=
    command_writes_object_or_nothing (fun _ => []) rebuilding workshop hhelp
  obtain ⟨a, path, hplace, hobject, hother, -, -⟩ := hzero hexit
  exact ⟨hhelp, hexit, a, path, hplace, hobject, hother, by decide +kernel⟩

end LittleComputer.Command
