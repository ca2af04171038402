import Cairn.Proofs.ClosedPrefixes
import Cairn.Proofs.OperatorSymbols
import Cairn.Proofs.RoundTrip
import Cairn.Proofs.TextOrder
import Cairn.Prompt

set_option autoImplicit false

/-!
# Completion

Completion searches a line from its end for an opening bracket, while the reader works from the
start. Where the text before the bracket is closed the two agree: the bracket opens a function
reference, and each name that is offered completes it to a reference to a registered function.
-/

namespace Cairn

namespace Prompt

variable {front typed line : List Char}

/-- The last opening bracket of a line is found, and the reference behind it is open if nothing
closes it. -/
theorem openReference?_append (last : '[' ∉ typed) :
    openReference? (front ++ '[' :: typed) = if ']' ∈ typed then none else some typed := by
  have behind : ∀ c ∈ typed.reverse, decide (c ≠ '[') = true := by
    intro c member
    simpa using ne_of_mem_of_not_mem (List.mem_reverse.mp member) last
  have found : (front ++ '[' :: typed).reverse.takeWhile (· ≠ '[') = typed.reverse := by
    have split : (front ++ '[' :: typed).reverse = typed.reverse ++ '[' :: front.reverse := by simp
    rw [split]
    exact takeWhile_of_stop behind (by simp)
  simp only [openReference?, found, List.reverse_reverse]
  by_cases closed : ']' ∈ typed <;> simp [closed]

theorem openReference?_of_notMem (absent : '[' ∉ line) : openReference? line = none := by
  simp [openReference?, absent]

/-- A line in which no reference is open at the end. -/
inductive NothingOpen : String → Prop
  | absent {line : String} (absent : '[' ∉ line.toList) : NothingOpen line
  | closed {front back : String} (last : '[' ∉ back.toList) (closed : ']' ∈ back.toList) :
      NothingOpen (front ++ "[" ++ back)

theorem toList_bracket (front back : String) :
    (front ++ "[" ++ back).toList = front.toList ++ '[' :: back.toList := by simp

theorem complete_of_nothingOpen {line : String} (nothing : NothingOpen line)
    (functions : List String) : complete functions line = ([], line) := by
  have none : openReference? line.toList = none := by
    cases nothing with
    | absent absent => exact openReference?_of_notMem absent
    | closed last closed => rw [toList_bracket, openReference?_append last, if_pos closed]
  rw [complete, none]

/-- What is offered for an open reference: the names that start with the text behind its bracket. -/
theorem complete_open {front typed : String} (last : '[' ∉ typed.toList)
    (unclosed : ']' ∉ typed.toList) (functions : List String) :
    complete functions (front ++ "[" ++ typed) =
      (Text.sort (functions.filter fun name => typed.toList.isPrefixOf name.toList), typed) := by
  rw [complete, toList_bracket, openReference?_append last, if_neg unclosed]
  simp only [String.ofList_toList]

end Prompt

namespace Reading

variable {isOperator : Char → Bool} {name front : String} {tokens : List Value}

theorem read_function (free : ']' ∉ name.toList) :
    read isOperator ("[" ++ name ++ "]") =
      .ok ⟨("[" ++ name ++ "]").length, [.function name]⟩ := by
  have text : ("[" ++ name ++ "]").toList = '[' :: (name.toList ++ [']']) := by simp
  have reads : Reads isOperator 0 ('[' :: (name.toList ++ [']'])) _ :=
    .token (lexeme_function free 0 []) .finish
  rw [← text] at reads
  rw [reads.read_eq, ← String.length_toList, text]
  simp [Except.map, Stretch.prepend, Nat.add_comm]

/-- A function reference behind a closed text. -/
theorem read_closed_function (closed : read isOperator (front ++ "\x7d") =
      .ok ⟨front.length, tokens⟩) (free : ']' ∉ name.toList) :
    read isOperator (front ++ "[" ++ name ++ "]") =
      .ok ⟨(front ++ "[" ++ name ++ "]").length, tokens ++ [.function name]⟩ := by
  have seam : Seam front.toList ("[" ++ name ++ "]").toList := by
    intro c _ d first _
    have bracket : ("[" ++ name ++ "]").toList.head? = some '[' := by simp
    rw [bracket] at first
    cases first
    decide
  have behind := read_append_of_closed closed seam
  rw [read_function free] at behind
  have same : front ++ ("[" ++ name ++ "]") = front ++ "[" ++ name ++ "]" := by
    simp only [String.append_assoc]
  rw [same] at behind
  rw [behind, ← same]
  simp only [String.length_append]

end Reading

namespace Machine

open Prompt

variable {m : Machine}

/-- Completion offers exactly the names that continue an open reference, in order. Behind a closed
text the reader takes each of them for a reference to the function. -/
theorem completion_agrees_with_reader (reachable : Reachable m) :
    (∀ front typed : String, '[' ∉ typed.toList → ']' ∉ typed.toList →
      ∃ hits, complete m.view.functions (front ++ "[" ++ typed) = (hits, typed) ∧
        (∀ name, name ∈ hits ↔ m.knows name = true ∧ ∃ rest, name = typed ++ rest) ∧
        hits.Nodup ∧ hits.Pairwise Text.Precedes ∧
        ∀ tokens, m.parse (front ++ "\x7d") = .ok ⟨front.length, tokens⟩ →
          ∀ name ∈ hits, ']' ∉ name.toList →
            m.parse (front ++ "[" ++ name ++ "]") =
              .ok ⟨(front ++ "[" ++ name ++ "]").length, tokens ++ [.function name]⟩ ∧
            m.knows name = true) ∧
    ∀ line, NothingOpen line → complete m.view.functions line = ([], line) := by
  refine ⟨fun front typed last unclosed => ?_,
    fun line nothing => complete_of_nothingOpen nothing _⟩
  have nodup : (m.view.functions.filter fun name => typed.toList.isPrefixOf name.toList).Nodup :=
    reachable.wellKeyed.functions.filter _
  have members : ∀ name, name ∈ Text.sort (m.view.functions.filter fun name =>
      typed.toList.isPrefixOf name.toList) ↔
      m.knows name = true ∧ ∃ rest, name = typed ++ rest := by
    intro name
    have starts : typed.toList <+: name.toList ↔ ∃ rest, name = typed ++ rest := by
      constructor
      · rintro ⟨rest, same⟩
        exact ⟨String.ofList rest, by simp [← String.toList_inj, same]⟩
      · rintro ⟨rest, rfl⟩
        exact ⟨rest.toList, by simp⟩
    rw [Text.mem_sort, List.mem_filter, knows, Table.contains_iff, List.isPrefixOf_iff_prefix,
      starts]
    rfl
  refine ⟨_, complete_open last unclosed _, members, (Text.perm_sort _).nodup_iff.mpr nodup,
    Text.pairwise_sort nodup, fun tokens closed name member free => ?_⟩
  rw [parse_eq_ok] at closed ⊢
  exact ⟨Reading.read_closed_function closed free, ((members name).mp member).1⟩

/-- Registers names of which two start alike; by their units the one with the picture comes first,
though its character has the greater number. -/
def register : Routine Unit :=
  .define "a～" (.done ()) (.define "b" (.done ()) (.define "a😀" (.done ()) (.done ())))

def named : Machine where
  functions := ⟨[("a～", .done ()), ("b", .done ()), ("a😀", .done ())]⟩

theorem reachable_named : Reachable named := by
  have settles : Settles (perform · register) {} (.ok ()) named := ⟨0, rfl⟩
  exact .settled (.new false) settles

/-- An opening bracket in a string and one in a comment come before the open one. -/
theorem completion_agrees_with_reader_named :
    complete named.view.functions ("\"[\" \\[\\ " ++ "[" ++ "a") = (["a😀", "a～"], "a") ∧
    (∃ tokens, named.parse ("\"[\" \\[\\ " ++ "\x7d") =
      .ok ⟨("\"[\" \\[\\ ").length, tokens⟩) ∧
    named.parse ("\"[\" \\[\\ " ++ "[" ++ "a😀" ++ "]") =
      .ok ⟨12, [.string "[", .function "a😀"]⟩ := by
  have offers : complete named.view.functions ("\"[\" \\[\\ " ++ "[" ++ "a") =
      (["a😀", "a～"], "a") := by
    have later : Text.le "a～" "a😀" = false := by decide
    have sorted : Text.sort ["a～", "a😀"] = ["a😀", "a～"] := by
      simp [Text.sort, List.mergeSort, later]
    rw [complete_open (by decide) (by decide), ← sorted]
    rfl
  have closed : named.parse ("\"[\" \\[\\ " ++ "\x7d") =
      .ok ⟨("\"[\" \\[\\ ").length, [.string "["]⟩ := rfl
  obtain ⟨hits, offered, -, -, -, reads⟩ :=
    (completion_agrees_with_reader reachable_named).1 "\"[\" \\[\\ " "a" (by decide) (by decide)
  obtain ⟨rfl, -⟩ := Prod.mk.inj (offers.symm.trans offered)
  exact ⟨offers, ⟨_, closed⟩, (reads _ closed "a😀" (by simp) (by decide)).1⟩

end Machine

end Cairn
