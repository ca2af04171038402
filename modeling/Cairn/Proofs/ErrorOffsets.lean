import Cairn.Proofs.ClosedPrefixes
import Mathlib

set_option autoImplicit false

/-!
# Where errors point

A text that cannot be read fails at the first of its pieces that is ill-formed, and the offset of
the error follows from where this piece stands: at the piece for an unknown character, right after
it for a bad numeral. A parenthesis counts as closed for its offset. So if it never is, the offset
is past the end of the text, by one; all other offsets point into the text.
-/

namespace Cairn

namespace Reading

variable {isOperator : Char → Bool}

/-- Whether a piece cannot stand in any block; this does not depend on where it stands. -/
def Piece.isIllFormed (isOperator : Char → Bool) (piece : Piece) : Bool :=
  match piece.meaning isOperator 0 with
  | .illFormed _ => true
  | .token _ | .nothing | .opening | .closing => false

theorem Piece.isIllFormed_of_meaning {pos : Nat} {piece : Piece} {error : ReadError}
    (illFormed : piece.meaning isOperator pos = .illFormed error) :
    piece.isIllFormed isOperator = true := by
  rw [← Nat.add_zero pos, meaning_shift] at illFormed
  unfold Piece.isIllFormed
  cases meaning : piece.meaning isOperator 0 with
  | illFormed => rfl
  | _ =>
    rw [meaning] at illFormed
    cases illFormed

theorem Piece.isIllFormed_eq_false {pos : Nat} {piece : Piece}
    (wellFormed : ∀ error, piece.meaning isOperator pos ≠ .illFormed error) :
    piece.isIllFormed isOperator = false := by
  rw [← Nat.add_zero pos, meaning_shift] at wellFormed
  unfold Piece.isIllFormed
  cases meaning : piece.meaning isOperator 0 with
  | illFormed =>
    rw [meaning] at wellFormed
    exact absurd rfl (wellFormed _)
  | _ => rfl

/-- What an ill-formed piece is reported as. -/
theorem Piece.error_of_meaning {pos : Nat} {piece : Piece} {error : ReadError}
    (illFormed : piece.meaning isOperator pos = .illFormed error) :
    (∃ c, piece = .single c ∧ error = ⟨.unknownSymbol (String.singleton c), pos⟩) ∨
    (∃ text, piece = .run text ∧ error = ⟨.badNumber (String.ofList text), pos + text.length⟩) ∨
    ∃ inside closer, piece = .enclosed '(' inside closer ∧
      error = ⟨.badNumber (String.ofList inside), pos + 1 + inside.length + 1⟩ := by
  have numeral : ∀ {text : List Char} {offset : Nat},
      Meaning.ofNumber (number text offset) = .illFormed error →
        error = ⟨.badNumber (String.ofList text), offset⟩ := by
    intro text offset bad
    unfold number at bad
    split at bad <;> cases bad
    rfl
  cases piece with
  | run text => exact .inr (.inl ⟨text, rfl, numeral illFormed⟩)
  | enclosed opener inside closer =>
    rw [Piece.meaning] at illFormed
    split at illFormed
    next parenthesis =>
      subst parenthesis
      exact .inr (.inr ⟨inside, closer, rfl, numeral illFormed⟩)
    next => split_ifs at illFormed
  | single c =>
    rw [Piece.meaning] at illFormed
    split_ifs at illFormed
    cases illFormed
    exact .inl ⟨c, rfl, rfl⟩

/-- Only a parenthesis without its closing character is reported past its end. -/
theorem Piece.offset_of_meaning {pos : Nat} {piece : Piece} {error : ReadError}
    (illFormed : piece.meaning isOperator pos = .illFormed error) :
    ((∃ inside, piece = .enclosed '(' inside none) →
      error.offset = pos + piece.text.length + 1) ∧
    ((¬ ∃ inside, piece = .enclosed '(' inside none) →
      error.offset ≤ pos + piece.text.length) := by
  rcases Piece.error_of_meaning illFormed with ⟨c, rfl, rfl⟩ | ⟨text, rfl, rfl⟩ |
    ⟨inside, closer, rfl, rfl⟩
  · simp [Piece.text]
  · simp [Piece.text]
  · cases closer with
    | none =>
      have length : (Piece.enclosed '(' inside none).text.length = inside.length + 1 := by
        simp [Piece.text]
      refine ⟨fun _ => ?_, fun closed => absurd ⟨inside, rfl⟩ closed⟩
      simp only [length]
      omega
    | some closer =>
      have length : (Piece.enclosed '(' inside (some closer)).text.length =
          inside.length + 2 := by simp [Piece.text]
      refine ⟨by rintro ⟨_, ⟨⟩⟩, fun _ => ?_⟩
      simp only [length]
      omega

/-- An unknown character is reported where it stands. -/
theorem Piece.unknown_of_meaning {pos : Nat} {piece : Piece} {error : ReadError} {name : String}
    (illFormed : piece.meaning isOperator pos = .illFormed error)
    (named : error.cause = .unknownFunction name) :
    error.offset = pos ∧ ∃ c, piece = .single c ∧ name = "'" ++ String.singleton c ++ "'" := by
  rcases Piece.error_of_meaning illFormed with ⟨c, rfl, rfl⟩ | ⟨text, rfl, rfl⟩ |
    ⟨inside, closer, rfl, rfl⟩
  · cases named
    exact ⟨rfl, c, rfl, rfl⟩
  · cases named
  · cases named

/-- The second pass fails at the first ill-formed piece. -/
theorem exists_illFormed_of_assemble {pos : Nat} {current : List Value}
    {blocks : List (List Value)} {ps : List Piece} {error : ReadError}
    (failed : assemble isOperator pos current blocks ps = .error error) :
    ∃ before piece after, ps = before ++ piece :: after ∧
      (∀ p ∈ before, p.isIllFormed isOperator = false) ∧
      piece.meaning isOperator (pos + (before.flatMap Piece.text).length) = .illFormed error := by
  induction ps generalizing pos current blocks with
  | nil => cases failed
  | cons first rest inductionHypothesis =>
    -- Behind a well-formed piece the failure is one of the rest.
    have later : ∀ {current' : List Value} {blocks' : List (List Value)},
        (∀ error, first.meaning isOperator pos ≠ .illFormed error) →
        assemble isOperator (pos + first.text.length) current' blocks' rest = .error error →
        ∃ before piece after, first :: rest = before ++ piece :: after ∧
          (∀ p ∈ before, p.isIllFormed isOperator = false) ∧
          piece.meaning isOperator (pos + (before.flatMap Piece.text).length) =
            .illFormed error := by
      intro current' blocks' wellFormed failedLater
      obtain ⟨before, piece, after, rfl, others, illFormed⟩ := inductionHypothesis failedLater
      refine ⟨first :: before, piece, after, rfl, ?_, ?_⟩
      · rw [List.forall_mem_cons]
        exact ⟨Piece.isIllFormed_eq_false wellFormed, others⟩
      · rwa [List.flatMap_cons, List.length_append, ← Nat.add_assoc]
    rw [assemble.eq_def] at failed
    simp only at failed
    cases meaning : first.meaning isOperator pos with
    | token value =>
      rw [meaning] at failed
      exact later (by simp [meaning]) failed
    | nothing =>
      rw [meaning] at failed
      exact later (by simp [meaning]) failed
    | opening =>
      rw [meaning] at failed
      exact later (by simp [meaning]) failed
    | closing =>
      rw [meaning] at failed
      cases blocks with
      | nil => cases failed
      | cons outer blocks => exact later (by simp [meaning]) failed
    | illFormed found =>
      rw [meaning] at failed
      cases failed
      exact ⟨[], first, rest, rfl, by simp, meaning⟩

/-- Nothing follows a piece without its closing character. -/
theorem eq_nil_of_unclosed {cs inside : List Char} {before after : List Piece} {opener : Char}
    (parts : pieces cs = before ++ .enclosed opener inside none :: after) : after = [] := by
  induction before generalizing cs with
  | nil =>
    cases cs with
    | nil => simp [pieces] at parts
    | cons c cs =>
      rw [pieces, List.nil_append, List.cons.injEq] at parts
      obtain ⟨first, rfl⟩ := parts
      rw [cut] at first ⊢
      split at first
      next => cases first
      next bare =>
        split at first
        next => cases first
        next opens =>
          injection first with _ _ ended
          rw [if_neg bare, if_neg opens]
          simp only [List.head?_eq_none_iff.mp ended, List.tail_nil, pieces]
  | cons first before inductionHypothesis =>
    cases cs with
    | nil => simp [pieces] at parts
    | cons c cs =>
      rw [pieces, List.cons_append, List.cons.injEq] at parts
      exact inductionHypothesis parts.2

/-- The first piece that is ill-formed is a parenthesis without its closing character. -/
def BreaksOff (isOperator : Char → Bool) (source : String) : Prop :=
  ∃ inside, (pieces source.toList).find? (·.isIllFormed isOperator) =
    some (.enclosed '(' inside none)

/-- A text that cannot be read fails at a piece of it. -/
theorem exists_illFormed_of_read {source : String} {error : ReadError}
    (failed : read isOperator source = .error error) :
    ∃ before piece after, pieces source.toList = before ++ piece :: after ∧
      (pieces source.toList).find? (·.isIllFormed isOperator) = some piece ∧
      piece.meaning isOperator (before.flatMap Piece.text).length = .illFormed error := by
  have reads := reads_stretch isOperator 0 (Nat.lt_succ_self source.toList.length)
  rw [reads.read_eq] at failed
  cases result : stretch isOperator source.toList.length.succ 0 source.toList with
  | ok s =>
    rw [result] at failed
    cases failed
  | error found =>
    rw [result] at failed reads
    cases failed
    have assembled := reads.assemble_eq [] []
    obtain ⟨before, piece, after, parts, others, illFormed⟩ :=
      exists_illFormed_of_assemble assembled
    rw [Nat.zero_add] at illFormed
    refine ⟨before, piece, after, parts, ?_, illFormed⟩
    have first : before.find? (·.isIllFormed isOperator) = none := by
      simpa [List.find?_eq_none] using others
    rw [parts, List.find?_append, first, Option.none_or]
    exact List.find?_cons_of_pos (Piece.isIllFormed_of_meaning illFormed)

end Reading

open Reading

/-- The offset of an error lies within the text or at its end, unless the text breaks off within a
parenthesis with nothing wrong before; then it is one further. -/
theorem read_error_points_into_source_iff {isOperator : Char → Bool} {source : String}
    {error : ReadError} (failed : read isOperator source = .error error) :
    (error.offset ≤ source.length ↔ ¬ BreaksOff isOperator source) ∧
    (BreaksOff isOperator source → error.offset = source.length + 1) ∧
    ∀ name, error.cause = .unknownFunction name →
      error.offset < source.length ∧
      ∃ c, source.toList[error.offset]? = some c ∧ name = "'" ++ String.singleton c ++ "'" := by
  obtain ⟨before, piece, after, parts, first, illFormed⟩ := exists_illFormed_of_read failed
  have text := pieces_text source.toList
  rw [parts, List.flatMap_append, List.flatMap_cons] at text
  have length := congrArg List.length text
  rw [List.length_append, List.length_append, String.length_toList] at length
  have breaksOff : BreaksOff isOperator source ↔ ∃ inside, piece = .enclosed '(' inside none := by
    simp only [BreaksOff, first, Option.some.injEq]
  have offset := Piece.offset_of_meaning illFormed
  rw [← breaksOff] at offset
  have past : BreaksOff isOperator source → error.offset = source.length + 1 := by
    intro broken
    obtain ⟨inside, rfl⟩ := breaksOff.mp broken
    obtain rfl := eq_nil_of_unclosed parts
    rw [List.flatMap_nil, List.length_nil] at length
    rw [offset.1 broken]
    omega
  have within : ¬ BreaksOff isOperator source → error.offset ≤ source.length := by
    intro whole
    have := offset.2 whole
    omega
  refine ⟨⟨fun inside broken => ?_, within⟩, past, fun name named => ?_⟩
  · rw [past broken] at inside
    omega
  · obtain ⟨place, c, rfl, spelled⟩ := Piece.unknown_of_meaning illFormed named
    rw [Piece.text, List.length_singleton] at length
    rw [Piece.text] at text
    rw [place]
    exact ⟨by omega, c, by simp [← text], spelled⟩

/-- An unknown character within two blocks, before a parenthesis that is not closed either, and a
text that breaks off within a block. -/
theorem read_error_points_into_source_iff_nested :
    (read (· = '+') "\\(\\\x7b+\x7b?(" = .error ⟨.unknownSymbol "?", 6⟩ ∧
      ¬ BreaksOff (· = '+') "\\(\\\x7b+\x7b?(" ∧
      ∃ c, "\\(\\\x7b+\x7b?(".toList[6]? = some c ∧
        "'" ++ "?" ++ "'" = "'" ++ String.singleton c ++ "'") ∧
    read (· = '+') "\x7b(1_)+(x" = .error ⟨.badNumber "x", 9⟩ ∧
      BreaksOff (· = '+') "\x7b(1_)+(x" ∧ 9 = "\x7b(1_)+(x".length + 1 := by
  have unknown : read (· = '+') "\\(\\\x7b+\x7b?(" = .error ⟨.unknownSymbol "?", 6⟩ := rfl
  have numeral : read (· = '+') "\x7b(1_)+(x" = .error ⟨.badNumber "x", 9⟩ := rfl
  obtain ⟨within, _, names⟩ := read_error_points_into_source_iff unknown
  obtain ⟨outside, past, _⟩ := read_error_points_into_source_iff numeral
  have breaksOff : BreaksOff (· = '+') "\x7b(1_)+(x" := by
    by_contra whole
    exact absurd (outside.mpr whole) (by decide)
  exact ⟨⟨unknown, within.mp (by decide), (names _ rfl).2⟩, numeral, breaksOff, past breaksOff⟩

/-- A numeral in a parenthesis that is never closed is reported past the end of the text. -/
theorem unclosed_error_points_past_end :
    read (· = '+') "(x" = .error ⟨.badNumber "x", 3⟩ ∧ ¬ 3 ≤ "(x".length :=
  ⟨rfl, by decide⟩

end Cairn
