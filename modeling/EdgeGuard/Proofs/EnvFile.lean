import EdgeGuard.EnvFile
import Mathlib.Data.List.Basic

/-!
# `EdgeGuard.Proofs.EnvFile`: what a file can do to an environment

A file is gone through binding by binding. Each binding gives its variable a text, but only a
variable that is not set takes it, and only when it can hold it. A text that a variable cannot hold
leaves no environment at all. So a file has no say about the variables that are set
(`lookup_apply_of_some`), and there is an environment whenever no zero character comes into a text:
neither from the file nor from the environment (`exists_apply`).

For the second one the walk carries two things: what the variables hold, and what the bindings
before gave, taken or not. Both are referred to by the bindings that follow, so both have to be free
of zero characters at every step.
-/

set_option autoImplicit false

namespace EdgeGuard.EnvFile

variable {environment seen final : Environment} {name text : String}

/-- The text that a binding gives its variable. A reference is looked up among the variables, and
then among the bindings before. -/
def Binding.textIn (environment seen : Environment) (binding : Binding) : String :=
  expand (fun name => (environment.lookup name).or (seen.lookup name)) binding.pieces

/-- One step of the walk through a file. -/
theorem applyBindings_cons (environment seen : Environment) (binding : Binding)
    (rest : List Binding) :
    let text := binding.textIn environment seen
    applyBindings environment seen (binding :: rest)
      = if (environment.lookup binding.name).isSome then
          applyBindings environment ((binding.name, text) :: seen) rest
        else if canHold text then
          applyBindings (environment ++ [(binding.name, text)]) ((binding.name, text) :: seen) rest
        else none :=
  rfl

/-- A step leaves a variable that is set as it is, so all steps do. -/
theorem lookup_applyBindings_of_some {steps : List Binding}
    (h : applyBindings environment seen steps = some final)
    (hset : environment.lookup name = some text) : final.lookup name = some text := by
  induction steps generalizing environment seen with
  | nil =>
    cases h
    exact hset
  | cons binding rest ih =>
    rw [applyBindings_cons] at h
    split at h
    · exact ih h hset
    · split at h
      · -- The new variable stands behind the others, and the first one of a name counts.
        refine ih h ?_
        rw [List.lookup_append, hset, Option.some_or]
      · cases h

/-- A variable that is set keeps its text, whatever a file binds it to. -/
theorem lookup_apply_of_some {bytes : ByteArray} (h : apply environment bytes = some final)
    (hset : environment.lookup name = some text) : final.lookup name = some text :=
  lookup_applyBindings_of_some h hset

/-! ### Texts without a zero character -/

/-- Every text of an environment can be held, as is the case for the variables of a system. -/
def Holdable (environment : Environment) : Prop := ∀ pair ∈ environment, canHold pair.2 = true

/-- A variable can hold every text without a zero character. -/
theorem canHold_iff (text : String) : canHold text = true ↔ '\x00' ∉ text.toList := by
  simp [canHold]

/-- What a variable of such an environment holds can be held. -/
theorem Holdable.lookup (h : Holdable environment) (hset : environment.lookup name = some text) :
    canHold text = true := by
  obtain ⟨before, after, rfl, -⟩ := List.lookup_eq_some_iff.1 hset
  exact h (name, text) (by simp)

/-- A text that can be held may stand in front of the others. This is how the bindings before
grow. -/
theorem Holdable.cons (h : Holdable environment) (hnew : canHold text = true) :
    Holdable ((name, text) :: environment) :=
  List.forall_mem_cons.2 ⟨hnew, h⟩

/-- A text that can be held may stand behind the others. This is how the environment grows. -/
theorem Holdable.append (h : Holdable environment) (hnew : canHold text = true) :
    Holdable (environment ++ [(name, text)]) :=
  List.forall_mem_append.2 ⟨h, List.forall_mem_singleton.2 hnew⟩

/-- A text that is put together from texts that can be held can be held. -/
theorem canHold_textIn (henvironment : Holdable environment) (hseen : Holdable seen)
    {binding : Binding} (h : Piece.char '\x00' ∉ binding.pieces) :
    canHold (binding.textIn environment seen) = true := by
  rw [canHold_iff, Binding.textIn, expand, String.toList_join, List.mem_flatMap]
  rintro ⟨_, hmem, hzero⟩
  obtain ⟨piece, hpiece, rfl⟩ := List.mem_map.1 hmem
  -- A zero character of the whole comes from one piece: from a character, which the hypothesis
  -- excludes, or from a variable or binding that a reference goes to.
  cases piece with
  | char c =>
    have hc : '\x00' = c := by simpa using hzero
    exact h (hc ▸ hpiece)
  | reference name =>
    cases hname : (environment.lookup name).or (seen.lookup name) with
    | none => simp [hname] at hzero
    | some text =>
      have htext : canHold text = true := by
        rcases Option.or_eq_some_iff.1 hname with hset | ⟨-, hgiven⟩
        · exact henvironment.lookup hset
        · exact hseen.lookup hgiven
      exact (canHold_iff text).1 htext (by simpa [hname] using hzero)

/-- No step fails when the texts have no zero character. The induction carries `Holdable` for the
variables and for the bindings before, since a binding may refer to both. -/
theorem exists_applyBindings {steps : List Binding} (henvironment : Holdable environment)
    (hseen : Holdable seen) (hsteps : ∀ binding ∈ steps, Piece.char '\x00' ∉ binding.pieces) :
    ∃ final, applyBindings environment seen steps = some final := by
  induction steps generalizing environment seen with
  | nil => exact ⟨environment, rfl⟩
  | cons binding rest ih =>
    obtain ⟨hbinding, hrest⟩ := List.forall_mem_cons.1 hsteps
    have htext := canHold_textIn henvironment hseen hbinding
    rw [applyBindings_cons, if_pos htext]
    split
    · -- The variable is set: only the bindings before grow.
      exact ih henvironment (hseen.cons htext) hrest
    · exact ih (henvironment.append htext) (hseen.cons htext) hrest

/-- A file without a zero character in its texts makes an environment. -/
theorem exists_apply {bytes : ByteArray} (henvironment : Holdable environment)
    (hbytes : ∀ binding ∈ bindings bytes, Piece.char '\x00' ∉ binding.pieces) :
    ∃ final, apply environment bytes = some final :=
  exists_applyBindings henvironment (fun _ hmem => absurd hmem List.not_mem_nil) hbytes

end EdgeGuard.EnvFile
