import Cairn.Proofs.Disciplines

set_option autoImplicit false

/-!
# Tame routines

Routines that only use operators they may count on. A tame routine pushes and runs nothing with an
operator outside the ones that are known, forgets nothing, and registers only core words and blocks
of known operators. What is known may grow whenever other code runs, so a routine is judged for all
that may be known by then. Every core word is tame, and so is the installation of them all.
-/

namespace Cairn

namespace Value

mutual

/-- The symbols of the operators in a value, inside blocks too. -/
def symbols : Value → List String
  | .operator symbol => [symbol]
  | .block body => symbolsIn body
  | .string _ | .number _ | .function _ | .boolean _ => []

def symbolsIn : List Value → List String
  | [] => []
  | v :: rest => symbols v ++ symbolsIn rest

end

variable {known known' : List String}

theorem symbolsIn_subset_iff {values : List Value} :
    symbolsIn values ⊆ known ↔ ∀ v ∈ values, v.symbols ⊆ known := by
  induction values with
  | nil => simp [symbolsIn]
  | cons v rest inductionHypothesis => simp [symbolsIn, inductionHypothesis]

theorem symbolsIn_cons_subset_iff {v : Value} {rest : List Value} :
    symbolsIn (v :: rest) ⊆ known ↔ v.symbols ⊆ known ∧ symbolsIn rest ⊆ known := by
  simp [symbolsIn]

/-- A value that may lie on the stack: no operator, and none but known ones inside. -/
def Storable (known : List String) (v : Value) : Prop :=
  (∀ symbol, v ≠ .operator symbol) ∧ v.symbols ⊆ known

theorem Storable.mono {v : Value} (grows : known ⊆ known') (storable : v.Storable known) :
    v.Storable known' :=
  ⟨storable.1, List.Subset.trans storable.2 grows⟩

@[simp] theorem storable_string (s : String) : Storable known (.string s) := by
  simp [Storable, symbols]

@[simp] theorem storable_number (x : Float) : Storable known (.number x) := by
  simp [Storable, symbols]

@[simp] theorem storable_boolean (b : Bool) : Storable known (.boolean b) := by
  simp [Storable, symbols]

@[simp] theorem storable_block (body : List Value) :
    Storable known (.block body) ↔ symbolsIn body ⊆ known := by
  simp [Storable, symbols]

end Value

namespace Request

/-- What a tame routine may ask for. -/
def Tame (known : List String) : Request → Prop
  | .push v | .storeAt _ v => v.Storable known
  | .evaluate tokens => Value.symbolsIn tokens ⊆ known
  | .invoke v => v.symbols ⊆ known
  | .forgetFunction _ | .forgetOperator _ => False
  | .view | .log | .pop | .valueAt _ | .clear | .emit _ | .trace _ | .assignOperator ..
  | .parse _ => True

/-- How the known operators may change while a request is answered. -/
def Extends (known known' : List String) : Request → Prop
  | .assignOperator .. | .evaluate _ | .invoke _ => known ⊆ known'
  | _ => known' = known

theorem extends_refl (known : List String) (request : Request) : request.Extends known known := by
  cases request with
  | assignOperator symbol name => exact List.Subset.refl known
  | evaluate tokens => exact List.Subset.refl known
  | invoke value => exact List.Subset.refl known
  | _ => rfl

theorem subset_of_extends {known known' : List String} (request : Request)
    (extended : request.Extends known known') : known ⊆ known' := by
  cases request with
  | assignOperator symbol name => exact extended
  | evaluate tokens => exact extended
  | invoke value => exact extended
  | _ => exact extended ▸ List.Subset.refl known

/-- What an answer brings in. -/
def Grants (known : List String) : (request : Request) → Except Fault request.Reply → Prop
  | .pop, .ok v => v.Storable known
  | .valueAt _, .ok v => v.Storable known
  | .parse _, .ok reading => Value.symbolsIn reading.tokens ⊆ known
  | _, _ => True

theorem brings_of_grants {known known' : List String} (request : Request)
    {reply : request.Reply} (granted : request.Grants known (.ok reply)) (grows : known ⊆ known') :
    request.Brings (Value.Storable known') reply := by
  cases request with
  | pop => exact Value.Storable.mono grows granted
  | valueAt index => exact Value.Storable.mono grows granted
  | _ => trivial

theorem grants_error (known : List String) (request : Request) (fault : Fault) :
    request.Grants known (.error fault) := by
  cases request <;> trivial

end Request

/-- What may be registered under a name: a core word, or a block of known operators. -/
def Registrable (known : List String) (body : Routine Unit) : Prop :=
  (∃ entry ∈ Core.words, entry.2.body = body) ∨
    ∃ tokens, Core.runBlock tokens = body ∧ Value.symbolsIn tokens ⊆ known

theorem Registrable.mono {known known' : List String} {body : Routine Unit}
    (grows : known ⊆ known') (registrable : Registrable known body) : Registrable known' body := by
  rcases registrable with word | ⟨tokens, same, resolved⟩
  · exact .inl word
  · exact .inr ⟨tokens, same, List.Subset.trans resolved grows⟩

/-- The discipline of tame routines, as long as no more operators become known. -/
def Discipline.tame (known : List String) : Discipline where
  Holds := Value.Storable known
  Asks := Request.Tame known
  Raises _ := True
  Registers := Registrable known

instance (known : List String) : (Discipline.tame known).Ample where
  string := Value.storable_string
  number := Value.storable_number
  boolean := Value.storable_boolean
  pop := trivial
  valueAt _ := trivial
  push _ := id
  storeAt _ _ := id
  invoke _ := And.right
  emit _ := trivial
  assignOperator _ _ _ := trivial
  language _ := trivial
  registers body storable := .inr ⟨body, rfl, (Value.storable_block body).mp storable⟩

namespace Routine

variable {α β : Type} {known : List String}

def Tame : {α : Type} → List String → Routine α → Prop
  | _, _, .done _ => True
  | _, _, .fail _ => True
  | _, known, .perform request next =>
    request.Tame known ∧ ∀ known', request.Extends known known' →
      ∀ reply, request.Grants known' reply → (next reply).Tame known'
  | _, known, .define _ body next => Registrable known body ∧ next.Tame known
  | _, known, .iterate round next =>
    (∀ known', known ⊆ known' → round.Tame known') ∧
      ∀ known', known ⊆ known' → ∀ reply, (next reply).Tame known'

/-- A tame routine with one after it that is tame whatever is known by then. -/
theorem Tame.bind {r : Routine α} {f : α → Routine β} (tame : r.Tame known)
    (later : ∀ known', known ⊆ known' → ∀ a, (f a).Tame known') : (r >>= f).Tame known := by
  induction r generalizing known with
  | done a => exact later known (List.Subset.refl known) a
  | fail fault => trivial
  | perform request next inductionHypothesis =>
    refine ⟨tame.1, fun known' extended reply granted => ?_⟩
    refine inductionHypothesis reply (tame.2 known' extended reply granted) fun known'' grows => ?_
    exact later known'' (List.Subset.trans (request.subset_of_extends extended) grows)
  | define name body next _ inductionHypothesis =>
    exact ⟨tame.1, inductionHypothesis tame.2 later⟩
  | iterate round next _ inductionHypothesis =>
    refine ⟨tame.1, fun known' grows reply => ?_⟩
    exact inductionHypothesis reply (tame.2 known' grows reply)
      fun known'' grows' => later known'' (List.Subset.trans grows grows')

theorem tame_ask_bind {request : Request} {f : request.Reply → Routine α} :
    (ask request >>= f).Tame known ↔ request.Tame known ∧
      ∀ known', request.Extends known known' → ∀ reply, request.Grants known' (.ok reply) →
        (f reply).Tame known' := by
  constructor
  · rintro ⟨tame, later⟩
    exact ⟨tame, fun known' extended reply => later known' extended (.ok reply)⟩
  · rintro ⟨tame, later⟩
    refine ⟨tame, fun known' extended reply granted => ?_⟩
    cases reply with
    | ok reply => exact later known' extended reply granted
    | error fault => trivial

theorem tame_ask {request : Request} : (ask request).Tame known ↔ request.Tame known := by
  constructor
  · exact And.left
  · intro tame
    refine ⟨tame, fun known' _ reply _ => ?_⟩
    cases reply <;> trivial

theorem tame_trace (message : String) : (trace message).Tame known := tame_ask.mpr trivial

theorem tame_run (source : String) : (run source).Tame known := by
  rw [run, parse, tame_ask_bind]
  refine ⟨trivial, ?_⟩
  rintro known' rfl reading resolved
  exact tame_ask.mpr resolved

/-- A routine that obeys whatever may be known by then is tame. -/
theorem Obeys.tame {r : Routine α}
    (obeys : ∀ known', known ⊆ known' → r.Obeys (.tame known')) : r.Tame known := by
  induction r generalizing known with
  | done a => trivial
  | fail fault => trivial
  | perform request next inductionHypothesis =>
    obtain ⟨asks, passes, _⟩ := obeys known (List.Subset.refl known)
    refine ⟨asks, fun known' extended reply granted => ?_⟩
    have grows := request.subset_of_extends extended
    cases reply with
    | ok reply =>
      refine inductionHypothesis (.ok reply) fun known'' grows' => ?_
      obtain ⟨_, _, goesOn⟩ := obeys known'' (List.Subset.trans grows grows')
      exact goesOn reply (request.brings_of_grants granted grows')
    | error fault =>
      rw [passes]
      trivial
  | define name body next _ inductionHypothesis =>
    obtain ⟨registrable, _⟩ := obeys known (List.Subset.refl known)
    exact ⟨registrable, inductionHypothesis fun known' grows => (obeys known' grows).2.2⟩
  | iterate round next roundHypothesis inductionHypothesis =>
    obtain ⟨_, passes, _⟩ := obeys known (List.Subset.refl known)
    refine ⟨fun known' grows => ?_, fun known' grows reply => ?_⟩
    · exact roundHypothesis fun known'' grows' => (obeys known'' (List.Subset.trans grows grows')).1
    · cases reply with
      | ok _ =>
        exact inductionHypothesis (.ok ())
          fun known'' grows' => (obeys known'' (List.Subset.trans grows grows')).2.2
      | error fault =>
        rw [passes]
        trivial

end Routine

namespace Core

open Routine

variable {known : List String} {body : List Value}

theorem tame_runBlock : (runBlock body).Tame known ↔ Value.symbolsIn body ⊆ known := tame_ask

/-- Every core word is tame, whatever operators are known. -/
theorem tame_words : ∀ entry ∈ words, entry.2.body.Tame known := fun entry member =>
  Obeys.tame fun _ _ => obeys_words entry member (fun _ => trivial) fun _ => trivial

theorem tame_of_registrable {body : Routine Unit} (registrable : Registrable known body) :
    body.Tame known := by
  rcases registrable with ⟨entry, member, rfl⟩ | ⟨tokens, rfl, resolved⟩
  · exact tame_words entry member
  · exact tame_runBlock.mpr resolved

theorem tame_addFunction {body : Routine Unit} (registrable : Registrable known body)
    (symbol? : Option String) (name : String) : (addFunction symbol? name body).Tame known := by
  unfold addFunction
  cases symbol? with
  | none => exact ⟨registrable, trivial⟩
  | some symbol =>
    exact Tame.bind (tame_ask.mpr trivial)
      fun known' grows _ => ⟨registrable.mono grows, trivial⟩

theorem tame_addAll {entries : List (String × Definition)} (ofWords : entries ⊆ words) :
    (Plugin.addAll entries).Tame known := by
  induction entries generalizing known with
  | nil => trivial
  | cons entry rest inductionHypothesis =>
    have registrable : Registrable known entry.2.body :=
      .inl ⟨entry, ofWords List.mem_cons_self, rfl⟩
    exact Tame.bind (tame_addFunction registrable entry.2.symbol? entry.1)
      fun known' grows _ => inductionHypothesis (List.subset_of_cons_subset ofWords)

theorem tame_install : plugin.install.Tame known := by
  refine Tame.bind (tame_addAll (List.Subset.refl words)) fun known' grows _ => ?_
  exact Tame.bind (tame_run prelude) fun known'' grows' _ => tame_trace _

end Core

end Cairn
