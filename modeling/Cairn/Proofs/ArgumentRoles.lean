import Cairn.CommandLine

set_option autoImplicit false

/-!
# Roles of arguments

Arguments are read twice: a scan from the left gives every argument a role, and later each flag is
looked up by itself. A look-up goes by the text of an argument only, so it also finds a flag where
the scan has passed over the value of another flag. The two readings agree on all arguments exactly
when no flag that is looked up with an effect stands in such a place.
-/

namespace Cairn.CommandLine

variable {args : List String} {flag : String} {i : Nat} {role : Role}

/-! Where the look-ups look. -/

theorem valueAfter?_eq (flag : String) (args : List String) :
    valueAfter? flag args = (args.findIdx? (· = flag)).bind fun i => args[i + 1]? := by
  induction args with
  | nil => rfl
  | cons arg rest inductionHypothesis =>
    rw [valueAfter?, List.findIdx?_cons]
    split
    next same => simp [same, List.head?_eq_getElem?]
    next other =>
      rw [inductionHypothesis, if_neg (by simpa using other), Option.bind_map]
      rfl

theorem valuesAfter_eq (flag : String) (args : List String) :
    valuesAfter flag args = ((args.zip args.tail).filter (·.1 = flag)).map (·.2) := by
  fun_induction valuesAfter flag args with
  | case1 next rest more inductionHypothesis => simp [more, inductionHypothesis]
  | case2 arg next rest more other inductionHypothesis => simp [more, other, inductionHypothesis]
  | case3 args short =>
    cases args with
    | nil => rfl
    | cons arg rest =>
      cases rest with
      | nil => rfl
      | cons next rest => exact absurd rfl (short arg next rest)

/-! What the scan says of a flag and of the argument after it. -/

theorem roles_head_ne_value (args : List String) (flag : String) :
    (roles args)[0]? ≠ some (.value flag) := by
  fun_cases roles args <;> simp

theorem role_of_flag (known : flag ∈ valueFlags ++ switches) (there : args[i]? = some flag) :
    (roles args)[i]? = some .flag ∨ ∃ other, (roles args)[i]? = some (.value other) := by
  fun_induction roles args generalizing i with
  | case1 => simp at there
  | case2 arg takes => cases i <;> simp_all
  | case3 arg takes next rest inductionHypothesis =>
    match i with
    | 0 => simp
    | 1 => simp
    | i + 2 => simpa using inductionHypothesis (by simpa using there)
  | case4 arg rest takes isSwitch inductionHypothesis =>
    match i with
    | 0 => simp
    | i + 1 => simpa using inductionHypothesis (by simpa using there)
  | case5 arg rest takes isSwitch isUnknown inductionHypothesis
  | case6 arg rest takes isSwitch isCode inductionHypothesis =>
    match i with
    | 0 => simp_all
    | i + 1 => simpa using inductionHypothesis (by simpa using there)

theorem value_iff :
    (roles args)[i + 1]? = some (.value flag) ↔
      (roles args)[i]? = some .flag ∧ args[i]? = some flag ∧ flag ∈ valueFlags ∧
        i + 1 < args.length := by
  fun_induction roles args generalizing i with
  | case1 => simp
  | case2 arg takes => simp
  | case3 arg takes next rest inductionHypothesis =>
    match i with
    | 0 =>
      have member : arg ∈ valueFlags := by simpa using takes
      constructor
      · intro same
        cases same
        simp [member]
      · rintro ⟨_, same, _⟩
        cases same
        rfl
    | 1 => simp [roles_head_ne_value]
    | i + 2 =>
      have shorter : i + 2 + 1 < (arg :: next :: rest).length ↔ i + 1 < rest.length := by
        simp only [List.length_cons]
        omega
      rw [shorter]
      exact inductionHypothesis
  | case4 arg rest takes isSwitch inductionHypothesis =>
    cases i with
    | zero =>
      have absent : arg ∉ valueFlags := by simpa using takes
      simp only [List.getElem?_cons_succ, roles_head_ne_value, false_iff]
      rintro ⟨_, same, member, _⟩
      cases same
      exact absent member
    | succ i => simpa using inductionHypothesis
  | case5 arg rest takes isSwitch isUnknown inductionHypothesis
  | case6 arg rest takes isSwitch isCode inductionHypothesis =>
    cases i with
    | zero => simp [roles_head_ne_value]
    | succ i => simpa using inductionHypothesis

/-- What becomes of an argument: it is the value that a look-up of a flag finds, it is itself a flag
that is looked for, or it is a part of the code. -/
inductive Uses (args : List String) : Nat → Role → Prop where
  | first {flag : String} {i : Nat} (single : flag ∈ ["--config", "--output", "--file"])
      (found : args.findIdx? (· = flag) = some i) (followed : i + 1 < args.length) :
      Uses args (i + 1) (.value flag)
  /-- The short form counts when the long one has no value. -/
  | short {i : Nat} (absent : valueAfter? "--file" args = none)
      (found : args.findIdx? (· = "-f") = some i) (followed : i + 1 < args.length) :
      Uses args (i + 1) (.value "-f")
  | plugin {i : Nat} (there : args[i]? = some "--plugin") (followed : i + 1 < args.length) :
      Uses args (i + 1) (.value "--plugin")
  | switch {flag : String} {i : Nat} (boolean : flag ∈ ["--list", "--parse", "--trace"])
      (there : args[i]? = some flag) : Uses args i .flag
  | code {i : Nat} (isCode : (roles args)[i]? = some .code) : Uses args i .code

/-- Every argument is used as what the scan takes it for. -/
def OneRole (args : List String) : Prop :=
  ∀ i role, Uses args i role → (roles args)[i]? = some role

/-- The flag at a place is looked up with an effect. -/
def Honours (args : List String) (i : Nat) : Prop :=
  Uses args i .flag ∨ ∃ flag, Uses args (i + 1) (.value flag)

theorem getElem?_of_findIdx? (found : args.findIdx? (· = flag) = some i) :
    args[i]? = some flag := by
  obtain ⟨bound, same, _⟩ := List.findIdx?_eq_some_iff_getElem.mp found
  rw [List.getElem?_eq_getElem bound]
  simpa using same

namespace Uses

/-- What is used as the value of a flag comes after the flag. -/
theorem flag_before (uses : Uses args (i + 1) (.value flag)) :
    args[i]? = some flag ∧ flag ∈ valueFlags ∧ i + 1 < args.length := by
  cases uses with
  | first single found followed =>
    have members : ["--config", "--output", "--file"] ⊆ valueFlags := by decide
    exact ⟨getElem?_of_findIdx? found, members single, followed⟩
  | short absent found followed => exact ⟨getElem?_of_findIdx? found, by decide, followed⟩
  | plugin there followed => exact ⟨there, by decide, followed⟩

theorem switch_there (uses : Uses args i .flag) :
    ∃ flag ∈ switches, args[i]? = some flag := by
  cases uses with
  | switch boolean there =>
    have members : ["--list", "--parse", "--trace"] ⊆ switches := by decide
    exact ⟨_, members boolean, there⟩

/-- A flag that the scan has not passed over as a value is used as the scan takes it. -/
theorem role_eq (uses : Uses args i role)
    (free : ∀ j, Honours args j → ∀ flag, (roles args)[j]? ≠ some (.value flag)) :
    (roles args)[i]? = some role := by
  cases role with
  | code =>
    cases uses with
    | code isCode => exact isCode
  | unknown => cases uses
  | flag =>
    obtain ⟨flag, member, there⟩ := uses.switch_there
    rcases role_of_flag (List.mem_append_right _ member) there with isFlag | ⟨other, isValue⟩
    · exact isFlag
    · exact absurd isValue (free i (.inl uses) other)
  | value flag =>
    cases i with
    | zero => cases uses
    | succ i =>
      obtain ⟨there, member, followed⟩ := uses.flag_before
      rcases role_of_flag (List.mem_append_left _ member) there with isFlag | ⟨other, isValue⟩
      · exact value_iff.mpr ⟨isFlag, there, member, followed⟩
      · exact absurd isValue (free i (.inr ⟨flag, uses⟩) other)

end Uses

/-- All arguments are used as the scan takes them exactly when no flag that is looked up with an
effect has been passed over as the value of another flag. -/
theorem arguments_play_one_role_iff (args : List String) :
    (∀ flag, valueAfter? flag args = (args.findIdx? (· = flag)).bind fun i => args[i + 1]?) ∧
    (∀ flag, valuesAfter flag args = ((args.zip args.tail).filter (·.1 = flag)).map (·.2)) ∧
    (OneRole args → ∀ i role role', Uses args i role → Uses args i role' → role = role') ∧
    (OneRole args ↔ ∀ i, Honours args i → ∀ flag, (roles args)[i]? ≠ some (.value flag)) := by
  refine ⟨fun flag => valueAfter?_eq flag args, fun flag => valuesAfter_eq flag args, ?_, ?_, ?_⟩
  · intro oneRole i role role' uses uses'
    exact Option.some.inj ((oneRole i role uses).symm.trans (oneRole i role' uses'))
  · intro oneRole i honours other isValue
    rcases honours with uses | ⟨flag, uses⟩
    · cases (oneRole i .flag uses).symm.trans isValue
    · have isFlag := (value_iff.mp (oneRole (i + 1) (.value flag) uses)).1
      cases isFlag.symm.trans isValue
  · intro free i role uses
    exact uses.role_eq free

/-- Arguments that name a file like a flag. -/
def flagForFile : List String := ["--file", "--output", "quiet"]

/-- The scan takes the last argument for code, and a look-up takes it for the mode of the output. -/
theorem arguments_play_two_roles :
    argumentsOf .code flagForFile = ["quiet"] ∧
      valueAfter? "--output" flagForFile = some "quiet" ∧ ¬ OneRole flagForFile := by
  have scanned : roles flagForFile = [.flag, .value "--file", .code] := by decide +kernel
  refine ⟨by decide +kernel, by decide, fun oneRole => ?_⟩
  have uses : Uses flagForFile (1 + 1) (.value "--output") :=
    .first (by decide) (by decide) (by decide)
  have role := oneRole _ _ uses
  rw [scanned] at role
  cases role

end Cairn.CommandLine
