import Cairn.Machine.Evaluation

set_option autoImplicit false

/-!
# Arguments

What a word can ask of the values on top of the stack, and what popping them does: the argument goes
to the word, or the word complains that there is none or that it is of a wrong type.
-/

namespace Cairn

/-- What a word asks of an argument. -/
inductive Demand where
  | value
  | number
  | text
  | block
  | truth

namespace Demand

/-- What a word gets from an argument. -/
@[reducible] def Content : Demand → Type
  | .value => Value
  | .number => Float
  | .text => String
  | .block => List Value
  | .truth => Bool

/-- An argument, or the complaint about it. -/
def receive : (demand : Demand) → Value → Except Cause demand.Content
  | .value, v => .ok v
  | .number, .number x => .ok x
  | .number, v => .error (.mismatch "number" v)
  | .text, .string s => .ok s
  | .text, v => .error (.mismatch "string" v)
  | .block, .block body => .ok body
  | .block, v => .error (.mismatch "macro" v)
  | .truth, v =>
    match v.truth? with
    | some b => .ok b
    | none => .error (.notBoolean v)

@[reducible] def Contents : List Demand → Type
  | [] => Unit
  | demand :: later => demand.Content × Contents later

/-- The arguments on a stack and the stack below them, or the complaint about the first that is
missing or wrong, from the top down. -/
def receiveAll : (demands : List Demand) → List Value → Except Cause (Contents demands × List Value)
  | [], stack => .ok ((), stack)
  | _ :: _, [] => .error .tooFewArguments
  | demand :: later, v :: below =>
    match demand.receive v with
    | .error cause => .error cause
    | .ok content =>
      (receiveAll later below).map fun (contents, rest) => ((content, contents), rest)

/-- The routine that pops an argument. -/
def pop : (demand : Demand) → Routine demand.Content
  | .value => Routine.pop
  | .number => Routine.takeNumber
  | .text => Routine.takeText
  | .block => Routine.takeBlock
  | .truth => Routine.takeTruth

end Demand

namespace Machine

variable {α : Type}

theorem runWith_pop_bind (demand : Demand) (exec : Value → Action Unit) (n : Nat)
    (f : demand.Content → Routine α) (m : Machine) :
    runWith exec n (demand.pop >>= f) m =
      match m.stack with
      | [] => .failed (.language .tooFewArguments) m
      | v :: below =>
        match demand.receive v with
        | .ok content => runWith exec n (f content) { m with stack := below }
        | .error cause => .failed (.language cause) { m with stack := below } := by
  obtain ⟨stack, _, _, _, _, _⟩ := m
  cases stack with
  | nil => cases demand <;> rfl
  | cons v below => cases demand <;> cases v <;> rfl

theorem runWith_pop_bind_push {demand : Demand} {v : Value} {content : demand.Content}
    (received : demand.receive v = .ok content) (exec : Value → Action Unit) (n : Nat)
    (f : demand.Content → Routine α) (m : Machine) :
    runWith exec n (demand.pop >>= f) (m.push v) = runWith exec n (f content) m := by
  simp only [runWith_pop_bind, push, received]

/-- A word that fails complains about its argument, or it fails with it. -/
theorem fault_of_runWith_pop_bind {demand : Demand} {exec : Value → Action Unit} {n : Nat}
    {f : demand.Content → Routine α} {m m' : Machine} {fault : Fault}
    (failed : runWith exec n (demand.pop >>= f) m = .failed fault m') :
    (∃ cause, fault = .language cause) ∨
      ∃ content below, runWith exec n (f content) { m with stack := below } = .failed fault m' := by
  rw [runWith_pop_bind] at failed
  split at failed
  next =>
    cases failed
    exact .inl ⟨_, rfl⟩
  next v below _ =>
    split at failed
    next content _ => exact .inr ⟨content, below, failed⟩
    next cause _ =>
      cases failed
      exact .inl ⟨cause, rfl⟩

end Machine

end Cairn
