/-
  The variables on which a program depends, and those that it changes.

  A program looks only at variables that it names: where the sessions differ in other variables
  alone, it comes to the same end, writes the same and reads the same, and the sessions still differ
  in other variables alone (`Program.within_run`).  And it changes only the variables that it
  assigns, and unsets none (`Program.run_footprint`).

  The first is a property of two runs: sessions that differ in other variables alone correspond
  (`Correspondence.sameOn`), and a program that names none of these stands for itself.  The second
  needs one run only: all that a program does to the store are its writes, and each of them belongs
  to an assignment that is evaluated, hence to one in the program.
-/
import NumScript.Proofs.Assignments
import NumScript.Proofs.Correspondence

namespace NumScript

/-! ## Names -/

/-- The program has a variable or an assignment of this name. -/
def Program.Mentions (p : Program) (name : String) : Prop :=
  ∃ e ∈ p.nodes, ∃ token, e.name? = some token ∧ token.lexeme = name

/-- The program has an assignment to this name. -/
def Program.Assigns (p : Program) (name : String) : Prop :=
  ∃ token value, .assign token value ∈ p.nodes ∧ token.lexeme = name

/-! ## Two runs -/

/-- The sessions differ at most in variables of other names. -/
structure Session.SameOn (names : String → Prop) (s s' : Session) : Prop where
  reader : s'.reader = s.reader
  writer : s'.writer = s.writer
  prompt : s'.prompt = s.prompt
  store : ∀ name, names name → s'.store.get? name = s.store.get? name

/-- From sessions that differ in variables of other names only, the effect comes to the same value
    or error, and to such sessions again. -/
def Effect.Within {α : Type} (names : String → Prop) (a : Effect α) : Prop :=
  ∀ s s', s.SameOn names s' →
    a s' = endIn (a.after s') (a s) ∧ (a.after s).SameOn names (a.after s')

theorem Session.SameOn.isFaithful (names : String → Prop) :
    Correspondence.IsFaithful id (SameOn names) Eq names where
  kind_token _ := rfl
  reader same := same.reader
  writer same := same.writer
  prompt same := same.prompt
  get? same _ named := same.store _ named
  set {s s'} same t x := by
    refine ⟨same.reader, same.writer, same.prompt, ?_⟩
    intro name mem
    show (s'.store.set t.lexeme x).get? name = (s.store.set t.lexeme x).get? name
    rw [Store.get?_set, Store.get?_set, same.store name mem]
  device same _ _ := ⟨rfl, rfl, same.prompt, same.store⟩
  error_io _ := rfl
  error_undefinedName _ := rfl
  error_badValue _ _ := rfl
  error_arithmetic _ _ := rfl
  error_notOperator _ := rfl

/-- Sessions correspond that differ at most in variables of other names. -/
def Correspondence.sameOn (names : String → Prop) : Correspondence where
  token := id
  session := Session.SameOn names
  error := Eq
  names := names
  faithful := Session.SameOn.isFaithful names

/-- An effect that corresponds to itself does not look at other variables. -/
theorem Effect.within_of_effects {α : Type} {names : String → Prop} {a : Effect α}
    (h : (Correspondence.sameOn names).Effects a a) : Within names a := by
  intro s s' same
  have ended := h s s' same
  unfold after
  generalize a s = one at ended ⊢
  generalize a s' = other at ended ⊢
  cases ended with
  | ok x same' => exact ⟨rfl, same'⟩
  | error h same' =>
    cases h
    exact ⟨rfl, same'⟩

/-! ## One run -/

/-- A name that is not written has no last value. -/
theorem lastWrite?_eq_none {name : String} {writes : List (String × Float)}
    (h : ∀ x, (name, x) ∉ writes) : lastWrite? name writes = none := by
  rw [lastWrite?, List.lookup_eq_none_iff]
  rintro ⟨other, x⟩ mem
  rw [bne_iff_ne]
  rintro rfl
  exact h x (List.mem_reverse.mp mem)

namespace Program

/-- A program looks only at variables that it names. -/
theorem within_run (p : Program) : Effect.Within p.Mentions p.run := by
  have named : Expr.AllNamed p.Mentions p.nodes :=
    fun e mem token named => ⟨e, mem, token, named, rfl⟩
  have ran := (Correspondence.sameOn p.Mentions).run named
  rw [show p.map (Correspondence.sameOn p.Mentions).token = p from p.map_id] at ran
  exact Effect.within_of_effects ran

/-- What a program writes is written by one of its assignments. -/
theorem assigns_of_mem_writes {p : Program} {s : Session} {name : String} {x : Float}
    (mem : (name, x) ∈ p.writes s) : p.Assigns name := by
  obtain ⟨before, after, split⟩ := List.append_of_mem mem
  obtain ⟨token, value, _, _, lexeme, evaluated, _⟩ := exists_of_writes split
  exact ⟨token, value, mem_nodes_of_evaluates evaluated, lexeme⟩

/-- A variable that is not assigned keeps what it had. -/
theorem get?_after_run {p : Program} {name : String} (h : ¬ p.Assigns name) (s : Session) :
    (p.run.after s).store.get? name = s.store.get? name := by
  have unwritten : lastWrite? name (p.writes s) = none :=
    lastWrite?_eq_none fun x mem => h (assigns_of_mem_writes mem)
  rw [store_after_run, Store.get?_setAll, unwritten]
  rfl

/-- No variable is unset. -/
theorem isSome_get?_after_run (p : Program) {s : Session} {name : String}
    (h : (s.store.get? name).isSome = true) :
    ((p.run.after s).store.get? name).isSome = true := by
  rw [store_after_run, Store.get?_setAll, Option.isSome_or, h, Bool.or_true]

/-- A program depends on the variables that it names, and changes those that it assigns.  From
    sessions that differ in other variables only it comes to the same end, be that a value or an
    error, with the same output and the same input left, and the sessions differ in other variables
    only.  And from any session, however it ends, a name without assignment in the program is bound
    as before, and what was bound still is. -/
theorem run_footprint (p : Program) {s s' : Session} (same : s.SameOn p.Mentions s') :
    p.run s' = Effect.endIn (p.run.after s') (p.run s) ∧
      (p.run.after s).SameOn p.Mentions (p.run.after s') ∧
      ∀ (u : Session) (name : String),
        (¬ p.Assigns name → (p.run.after u).store.get? name = u.store.get? name) ∧
        ((u.store.get? name).isSome = true →
          ((p.run.after u).store.get? name).isSome = true) := by
  obtain ⟨ended, same'⟩ := p.within_run s s' same
  refine ⟨ended, same', ?_⟩
  intro u name
  exact ⟨fun unassigned => get?_after_run unassigned u, p.isSome_get?_after_run⟩

/-- The program `y = x` does the same whatever `z` is, and leaves `z` alone. -/
theorem run_footprint_of_other_variable :
    let p : Program :=
      ⟨[.expression (.assign ⟨.identifier, "y", 1⟩ (.var ⟨.identifier, "x", 1⟩))]⟩
    let s : Session := { store := ⟨[("x", 1.0)]⟩, reader := ⟨[], none⟩ }
    let s' : Session := { store := ⟨[("z", 2.0), ("x", 1.0)]⟩, reader := ⟨[], none⟩ }
    p.run s' = Effect.endIn (p.run.after s') (p.run s) ∧
      (p.run.after s').store.get? "z" = some 2.0 := by
  intro p s s'
  have nodes : p.nodes = [.assign ⟨.identifier, "y", 1⟩ (.var ⟨.identifier, "x", 1⟩),
    .var ⟨.identifier, "x", 1⟩] := rfl
  have same : s.SameOn p.Mentions s' := by
    refine ⟨rfl, rfl, rfl, ?_⟩
    rintro name ⟨e, mem, token, named, rfl⟩
    rw [nodes, List.mem_cons, List.mem_singleton] at mem
    rcases mem with rfl | rfl <;>
    · cases named
      rfl
  obtain ⟨ended, _, frame⟩ := run_footprint p same
  have unassigned : ¬ p.Assigns "z" := by
    rintro ⟨token, value, mem, lexeme⟩
    rw [nodes, List.mem_cons, List.mem_singleton] at mem
    rcases mem with assigned | no
    · cases assigned
      exact absurd lexeme (by decide)
    · cases no
  exact ⟨ended, (frame s' "z").1 unassigned⟩

end Program

end NumScript
