import HackLexer.Proofs.ByteAccounting
import HackLexer.Proofs.Grammar.Tokens

/-!
# What errors point at

An error points at the construct that could not be read: a character that starts no
token, the opener of a comment, the quote or the header of a string.  Nothing of that
construct has been handed out before.  If the text ends inside of literals, the
innermost of them is reported.

The main statement is `errors_point_at_constructs`.
-/

namespace HackLexer

namespace Lexer

/-- Where the open literals start, from the innermost to the outermost. -/
def literalStarts (lexer : Lexer) : List Nat :=
  lexer.openLiterals.map fun literal => literal.start.offset

/-- Every open literal starts behind those around it, and tokens wait only outside of
literals. -/
structure Nested (lexer : Lexer) : Prop where
  inward : lexer.literalStarts.Pairwise (· > ·)
  waiting : lexer.ready ≠ [] → lexer.openLiterals = []

namespace Nested

variable {text : Text} {tokens : List Token} {lexer : Lexer}

theorem ofText (text : Text) : Nested (.ofText text) where
  inward := .nil
  waiting := absurd rfl

theorem of_closed (closed : lexer.openLiterals = []) : lexer.Nested where
  inward := by
    rw [literalStarts, closed]
    exact .nil
  waiting _ := closed

theorem of_starts {other : Lexer} (nested : lexer.Nested)
    (starts : other.literalStarts = lexer.literalStarts) (ready : other.ready = []) :
    other.Nested where
  inward := starts ▸ nested.inward
  waiting some := absurd ready some

theorem delivery {lexeme : Lexeme} {step : Step} (nested : lexer.Nested)
    (closed : lexer.literal = none) (ready : lexer.ready = [])
    (delivery : lexer.Delivery lexeme step) :
    step.Keeps (fun _ => Nested) (fun _ => True) tokens := by
  cases delivery with
  | @within interpolation after outer interpolations receipt =>
      refine @of_starts lexer _ nested ?_ ready
      simp [literalStarts, openLiterals, interpolations,
        Interpolation.literal_of_within receipt, StringLiteral.append]
  | @ended interpolation outer literal interpolations receipt =>
      refine @of_starts lexer _ nested ?_ ready
      simp [literalStarts, openLiterals, closed, interpolations,
        Interpolation.literal_of_ended receipt, StringLiteral.append]
  | token => exact nested
  | collecting => exact nested.of_starts rfl ready
  | complete interpolations =>
      apply of_closed
      rw [openLiterals_handBack]
      simp [openLiterals, closed, interpolations]
  | comment => exact nested.of_starts rfl ready
  | unclosedComment => trivial

theorem finish (nested : lexer.Nested) (closed : lexer.literal = none) :
    (Step.pulled lexer.finish).Keeps (fun _ => Nested) (fun _ => True) tokens := by
  unfold Lexer.finish
  split
  · trivial
  · rename_i interpolations
    split
    · exact nested
    · apply of_closed
      simp [openLiterals, closed, interpolations]

theorem turn {step : Step} (nested : lexer.Nested) (placed : Placed text tokens lexer)
    (turn : lexer.Turn step) : step.Keeps (fun _ => Nested) (fun _ => True) tokens := by
  cases turn with
  | ready ready =>
      have closed := nested.waiting (by rw [ready]; exact List.cons_ne_nil _ _)
      exact of_closed closed
  | @closed literal lexeme step ready opened reading delivery =>
      have outside : Nested { lexer with cursor := lexeme.stop, literal := none } := by
        refine ⟨?_, absurd ready⟩
        have inward := nested.inward
        rw [literalStarts, openLiterals, opened] at inward
        exact (List.pairwise_cons.mp inward).2
      exact outside.delivery rfl ready delivery
  | @interrupted literal suspended after ready opened reading =>
      refine @of_starts lexer _ nested ?_ ready
      simp [literalStarts, openLiterals, opened,
        (StringLiteral.read_interpolation_places reading).1]
  | unclosed => trivial
  | finished ready literal => exact nested.finish literal
  | failed => trivial
  | layout ready => exact nested.of_starts rfl ready
  | @lexeme scanned lexeme step ready literal remaining success found delivery =>
      have passed : (lexer.passing scanned).Nested := nested.of_starts rfl ready
      exact passed.delivery literal ready delivery
  | @literal scanned opened ready literal remaining success found =>
      -- The literals around have all been opened in front of the cursor.
      refine ⟨?_, absurd ready⟩
      have starts : { lexer.passing scanned with literal := some opened }.literalStarts =
          lexer.cursor.offset :: lexer.literalStarts := by
        simp [literalStarts, openLiterals, literal, Lexer.passing,
          (scan_success success).literal_start found]
      rw [starts]
      apply List.pairwise_cons.mpr ⟨_, nested.inward⟩
      intro start member
      obtain ⟨around, aroundMember, rfl⟩ := List.mem_map.mp member
      exact (placed.literals around aroundMember).nonempty
  | element ready => exact nested.of_starts rfl ready

end Nested

theorem Run.nested {text : Text} {tokens : List Token} {lexer : Lexer}
    (run : Run text tokens lexer) : lexer.Nested :=
  @Run.invariant text (fun _ => Nested) (fun _ => True) (Nested.ofText text)
    (fun _ lexer run nested => nested.turn run.placed lexer.step_turn) tokens lexer run

/-- The text ends inside of a literal: the rest of the text is its body, or nothing is
left of the text inside of an interpolation of the literal. -/
def EndsInside (lexer : Lexer) (literal : StringLiteral) : Prop :=
  lexer.literal = some literal ∧ (literal.body lexer.cursor.rest).ending = .endOfText ∨
    lexer.literal = none ∧ lexer.interpolations.head?.map Interpolation.literal = some literal ∧
      lexer.cursor.rest = []

theorem EndsInside.openLiterals_eq {lexer : Lexer} {literal : StringLiteral}
    (ends : lexer.EndsInside literal) : ∃ outer, lexer.openLiterals = literal :: outer := by
  rcases ends with ⟨opened, _⟩ | ⟨closed, innermost, _⟩
  · exact ⟨lexer.interpolations.map Interpolation.literal, by simp [openLiterals, opened]⟩
  · obtain ⟨interpolation, head, rfl⟩ := Option.map_eq_some_iff.mp innermost
    obtain ⟨outer, interpolations⟩ := List.head?_eq_some_iff.mp head
    exact ⟨outer.map Interpolation.literal, by simp [openLiterals, closed, interpolations]⟩

theorem EndsInside.step {lexer : Lexer} {literal : StringLiteral}
    (ends : lexer.EndsInside literal) (ready : lexer.ready = []) :
    lexer.step = .pulled (.failed (literal.unclosed lexer.cursor) lexer) := by
  rcases ends with ⟨opened, ending⟩ | ⟨closed, innermost, finished⟩
  · have reading : literal.read lexer.cursor = .unclosed (literal.unclosed lexer.cursor) := by
      simp only [StringLiteral.read, ending]
    simp only [Lexer.step, ready, opened, reading]
  · obtain ⟨interpolation, head, rfl⟩ := Option.map_eq_some_iff.mp innermost
    obtain ⟨outer, interpolations⟩ := List.head?_eq_some_iff.mp head
    simp only [Lexer.step, ready, closed, finished, Lexer.finish, interpolations]

/-- What has been handed out ends before every open literal. -/
theorem Run.tokens_before_literal {text : Text} {tokens : List Token} {lexer : Lexer}
    {token : Token} {literal : StringLiteral} (run : Run text tokens lexer)
    (handed : token ∈ tokens) (opened : literal ∈ lexer.openLiterals) :
    token.span.stop ≤ literal.start.offset := by
  have nonempty : lexer.openLiterals ≠ [] := List.ne_nil_of_mem opened
  let outermost := lexer.openLiterals.getLast nonempty
  have last : lexer.openLiterals.getLast? = some outermost := List.getLast?_eq_some_getLast nonempty
  have covering : lexer.covering = [outermost.covering lexer.cursor] := by
    rw [Lexer.covering, List.getLast?_map, last]
    rfl
  have before : token.span.stop ≤ outermost.start.offset := by
    have ordered := (List.pairwise_append.mp run.accounts.ordered).2.2
    apply ordered token handed (outermost.covering lexer.cursor)
    rw [ledger, covering]
    exact List.mem_append_right _ (List.mem_singleton_self _)
  have inside : outermost.start.offset ≤ literal.start.offset := by
    have inward := run.nested.inward
    rw [literalStarts, ← List.dropLast_append_getLast nonempty, List.map_append,
      List.pairwise_append] at inward
    rw [← List.dropLast_append_getLast nonempty] at opened
    rcases List.mem_append.mp opened with inner | same
    · exact Nat.le_of_lt (inward.2.2 _ (List.mem_map_of_mem inner) _ (List.mem_singleton_self _))
    · rw [List.mem_singleton.mp same]
  omega

theorem Nested.start_le {lexer : Lexer} {innermost literal : StringLiteral}
    {outer : List StringLiteral} (nested : lexer.Nested)
    (literals : lexer.openLiterals = innermost :: outer) (opened : literal ∈ lexer.openLiterals) :
    literal = innermost ∨ literal.start.offset < innermost.start.offset := by
  have inward := nested.inward
  rw [literalStarts, literals, List.map_cons, List.pairwise_cons] at inward
  rw [literals] at opened
  rcases List.mem_cons.mp opened with same | around
  · exact .inl same
  · exact .inr (inward.1 _ (List.mem_map_of_mem around))

/-- A `<`, a `!` and a `--` that open a markup comment: the first two are the last
lexemes of the innermost open element, whose children are being read, and the third
one stands at the cursor.  Between them there is only layout and comments. -/
structure OpensMarkupComment (text : Text) (lexer : Lexer) (lt bang decrement : Lexeme) :
    Prop where
  held : ∃ element outer earlier, lexer.elements = element :: outer ∧
    element.phase = .children ∧ element.content = bang :: lt :: earlier
  cursor : decrement.start = lexer.cursor
  kinds : lt.kind = .lt ∧ bang.kind = .bang ∧ decrement.kind = .decrement
  spelled : lt.raw = "<".toList ∧ bang.raw = "!".toList ∧ decrement.raw = "--".toList
  ordered : lt.span.Before bang.span ∧ bang.span.Before decrement.span
  between : ∀ offset byte, lt.span.start ≤ offset → offset < decrement.span.stop →
    (Text.bytes text)[offset]? = some byte →
    ¬ lt.span.Covers offset → ¬ bang.span.Covers offset → ¬ decrement.span.Covers offset →
    (∀ comment, comment ∈ lexer.comments → ¬ comment.span.Covers offset) → byte ∈ layoutBytes

end Lexer

/-- What an error points at, by its cause, and where that stands.  The lexer is the one
whose step fails. -/
def LexicalError.PointsAt (text : Text) (lexer : Lexer) (error : LexicalError) : Prop :=
  match error.cause with
  | .unknownToken =>
      error.span.start = lexer.cursor.offset ∧ error.span.text.length = 1
  | .unterminatedComment =>
      error.span.start = lexer.cursor.offset ∧ error.span.text = "/*".toList ∨
        ∃ lt bang decrement, lexer.OpensMarkupComment text lt bang decrement ∧
          error.span = lt.start.spanTo decrement.stop
  | .unterminatedString .single =>
      error.span.start = lexer.cursor.offset ∧ error.span.text = "'".toList
  | .unterminatedString .double =>
      lexer.literalStarts.head? = some error.span.start ∧ error.span.text = "\"".toList
  | .unterminatedDocString .heredoc =>
      lexer.literalStarts.head? = some error.span.start ∧
        ∃ label, label ∈ Grammar.label ∧ error.span.text = DocString.heredoc.opening label
  | .unterminatedDocString .nowdoc =>
      error.span.start = lexer.cursor.offset ∧
        ∃ label, label ∈ Grammar.label ∧ error.span.text = DocString.nowdoc.opening label
  | .invalidDocString =>
      error.span.start = lexer.cursor.offset ∧ error.span.text = "<<<".toList

theorem Cursor.text_spanOf (cursor : Cursor) (count : Nat) :
    (cursor.spanOf count).text = cursor.rest.take count := by
  rw [spanOf, spanTo_advance]

theorem ScanFailure.start_eq {cursor : Cursor} {error : LexicalError}
    (failure : ScanFailure cursor error) : error.span.start = cursor.offset := by
  cases failure <;> rfl

theorem ScanFailure.pointsAt {text : Text} {lexer : Lexer} {error : LexicalError}
    (failure : ScanFailure lexer.cursor error) (remaining : lexer.cursor.rest ≠ []) :
    error.PointsAt text lexer := by
  cases failure with
  | comment rest =>
      refine .inl ⟨rfl, ?_⟩
      change (lexer.cursor.spanOf 2).text = _
      rw [Cursor.text_spanOf, rest]
      rfl
  | quoted rest =>
      refine ⟨rfl, ?_⟩
      change (lexer.cursor.spanOf 1).text = "'".toList
      rw [Cursor.text_spanOf, rest]
      rfl
  | @nowdoc behind header rest opened form =>
      obtain ⟨labelled, opening, _⟩ := DocString.header?_mem opened
      refine ⟨rfl, header.label.text, labelled, ?_⟩
      change (lexer.cursor.spanOf header.length).text = _
      rw [Cursor.text_spanOf, rest, opening, form]
  | label rest =>
      refine ⟨rfl, ?_⟩
      change (lexer.cursor.spanOf 3).text = "<<<".toList
      rw [Cursor.text_spanOf, rest]
      rfl
  | unknown =>
      refine ⟨rfl, ?_⟩
      change (lexer.cursor.spanOf 1).text.length = 1
      obtain ⟨first, behind, rest⟩ := List.exists_cons_of_ne_nil remaining
      rw [Cursor.text_spanOf, rest]
      rfl

theorem take_of_take_append {text front back : Text} {count : Nat}
    (taken : text.take count = front ++ back) : text.take front.length = front := by
  have first : front <+: text.take count := taken ▸ List.prefix_append front back
  exact (List.prefix_iff_eq_take.mp (first.trans (List.take_prefix count text))).symm

theorem StringLiteral.start_unclosed (literal : StringLiteral) (cursor : Cursor) :
    (literal.unclosed cursor).span.start = literal.start.offset := by
  unfold unclosed
  split <;> rfl

theorem StringLiteral.Opened.pointsAt {text : Text} {lexer : Lexer} {limit : Cursor}
    {literal : StringLiteral} (opened : literal.Opened limit)
    (innermost : lexer.literalStarts.head? = some literal.start.offset) (cursor : Cursor) :
    (literal.unclosed cursor).PointsAt text lexer := by
  obtain ⟨count, opening, _⟩ := opened
  unfold unclosed
  split
  · rename_i form
    rw [form] at opening
    have quote := Grammar.eq_of_mem_spelling opening
    refine ⟨innermost, ?_⟩
    change (literal.start.spanOf 1).text = "\"".toList
    rw [Cursor.text_spanOf]
    exact take_of_take_append (quote.trans (List.append_nil _).symm)
  · rename_i label atLineStart form
    rw [form] at opening
    obtain ⟨labelled, lineBreak, _, whole⟩ := opening
    refine ⟨innermost, label.text, labelled, ?_⟩
    change (literal.start.spanOf (3 + label.length)).text = DocString.heredoc.opening label.text
    rw [Cursor.text_spanOf]
    have size : 3 + label.length = (DocString.heredoc.opening label.text).length := by
      simp [DocString.opening_heredoc, Label.length]
      omega
    rw [size]
    exact take_of_take_append whole

namespace Lexer

section Opener

variable {text : Text} {tokens : List Token} {lexer : Lexer} {scanned : Scanned}
  {lexeme lt : Lexeme} {element after : Element} {outer : List Element}

/-- An element that takes a lexeme for the end of a comment opener. -/
theorem Run.opensMarkupComment (run : Run text tokens lexer) (ready : lexer.ready = [])
    (literal : lexer.literal = none) (interpolations : lexer.interpolations = [])
    (success : scan lexer.interpolations.isEmpty lexer.cursor = .ok scanned)
    (found : scanned.found = .lexeme lexeme) (elements : lexer.elements = element :: outer)
    (receipt : element.receive lexeme = .comment lt after) :
    (∃ bang, lexer.OpensMarkupComment text lt bang lexeme) ∧ lexeme.stop = scanned.after ∧
      ∀ token, token ∈ tokens → token.span.stop ≤ lt.start.offset := by
  cases Element.received_of_receipt receipt with
  | @comment _ bang earlier phase decrement content opener exclaimed =>
      have outcome := scan_success success
      have start := outcome.lexeme_start found
      have stop : lexeme.stop = scanned.after :=
        outcome.stop_of_unmarked found (by simp [decrement])
      have given := scan_justified success
      rw [found] at given
      -- The ledger ends with the two lexemes of the opener that have been read.
      have accounts := run.accounts
      let before := tokens ++ (Element.dissolve outer ++
        (element.name :: earlier.reverse)).map Lexeme.token
      have ledger : tokens ++ lexer.ledger = before ++ [lt.token, bang.token] := by
        have closed : lexer.openLiterals = [] := by simp [openLiterals, literal, interpolations]
        simp [ledger_of_nil closed, stock, ready, elements, Element.lexemes, phase, content, before]
      rw [Accounts, ledger] at accounts
      have held : ∀ inside, inside = lt ∨ inside = bang → inside.token.Justified := by
        intro inside either
        apply run.justified.lexemes inside
        rw [elements, Element.dissolve_cons]
        simp only [Element.lexemes, phase, content]
        rcases either with rfl | rfl <;> simp
      obtain ⟨_, last, earlierBefore⟩ := List.pairwise_append.mp accounts.ordered
      have ltBefore : lt.span.Before bang.span :=
        (List.pairwise_cons.mp last).1 _ (List.mem_singleton_self _)
      have bangBefore : bang.span.stop ≤ lexer.cursor.offset :=
        accounts.bounded bang.token (by simp)
      have lexemeStart : lexeme.span.start = lexer.cursor.offset := by
        rw [Lexeme.span, Cursor.start_spanTo, start]
      refine ⟨⟨bang, ?_⟩, stop, ?_⟩
      · refine ⟨⟨element, outer, earlier, elements, phase, content⟩, start,
          ⟨opener, exclaimed, decrement⟩,
          ⟨(held lt (.inl rfl)).text_of_kind opener rfl (by decide),
            (held bang (.inr rfl)).text_of_kind exclaimed rfl (by decide),
            given.1.text_of_kind decrement rfl (by decide)⟩,
          ⟨ltBefore, by rw [Span.Before, lexemeStart]; exact bangBefore⟩, ?_⟩
        intro offset byte low high there noLt noBang noDecrement noComment
        have inFront : offset < lexer.cursor.offset := by
          by_contra further
          exact noDecrement ⟨by omega, high⟩
        apply accounts.gaps offset byte inFront there
        · intro token member covers
          rcases List.mem_append.mp member with earlier | opening
          · have ends : token.span.stop ≤ lt.span.start := earlierBefore token earlier lt.token (by simp)
            have below := covers.2
            omega
          · simp only [List.mem_cons, List.not_mem_nil, or_false] at opening
            rcases opening with rfl | rfl
            · exact noLt covers
            · exact noBang covers
        · intro comment member
          exact noComment comment (Array.mem_toList_iff.mp member)
      · intro token handed
        exact earlierBefore token (List.mem_append_left _ handed) lt.token (by simp)

end Opener

/-- An error points at a construct that starts behind all that has been handed out,
and not in front of any open literal. -/
structure Blames (text : Text) (tokens : List Token) (lexer : Lexer) (error : LexicalError) :
    Prop where
  construct : error.PointsAt text lexer
  behind : ∀ token, token ∈ tokens → token.span.stop ≤ error.span.start
  innermost : ∀ literal, literal ∈ lexer.openLiterals → literal.start.offset ≤ error.span.start

section

variable {text : Text} {tokens : List Token} {lexer : Lexer}

theorem Run.blames_unclosed {literal : StringLiteral} {outer : List StringLiteral}
    (run : Run text tokens lexer) (literals : lexer.openLiterals = literal :: outer) :
    Blames text tokens lexer (literal.unclosed lexer.cursor) := by
  have member : literal ∈ lexer.openLiterals := by simp [literals]
  have opened := run.justified.literals literal member
  have innermost : lexer.literalStarts.head? = some literal.start.offset := by
    simp [literalStarts, literals]
  have start := literal.start_unclosed lexer.cursor
  refine ⟨opened.pointsAt innermost lexer.cursor, ?_, ?_⟩
  · intro token handed
    rw [start]
    exact run.tokens_before_literal handed member
  · intro around aroundMember
    rw [start]
    rcases run.nested.start_le literals aroundMember with rfl | earlier
    · exact Nat.le_refl _
    · exact Nat.le_of_lt earlier

theorem Run.blames_scan {error : LexicalError} (run : Run text tokens lexer)
    (remaining : lexer.cursor.rest ≠ []) (failure : ScanFailure lexer.cursor error) :
    Blames text tokens lexer error := by
  have start := failure.start_eq
  refine ⟨failure.pointsAt remaining, ?_, ?_⟩
  · intro token handed
    rw [start]
    exact run.accounts.bounded token (List.mem_append_left _ handed)
  · intro literal opened
    rw [start]
    exact Nat.le_of_lt (run.placed.literals literal opened).nonempty

theorem Run.blames {error : LexicalError} {after : Lexer} (run : Run text tokens lexer)
    (failed : lexer.step = .pulled (.failed error after)) : Blames text tokens lexer error := by
  have turn := lexer.step_turn
  generalize result : lexer.step = answer at turn
  rw [failed] at result
  cases turn with
  | @unclosed literal _ ready opened reading =>
      cases result
      have literals : lexer.openLiterals =
          literal :: lexer.interpolations.map Interpolation.literal := by
        simp [openLiterals, opened]
      rw [StringLiteral.read_unclosed reading]
      exact run.blames_unclosed literals
  | finished ready literal finished =>
      unfold Lexer.finish at result
      split at result
      · rename_i interpolation outer interpolations
        cases result
        have literals : lexer.openLiterals =
            interpolation.literal :: outer.map Interpolation.literal := by
          simp [openLiterals, literal, interpolations]
        exact run.blames_unclosed literals
      · split at result <;> cases result
  | failed ready literal remaining failure =>
      cases result
      exact run.blames_scan remaining (scan_failure failure)
  | @closed literal lexeme _ ready opened reading delivery =>
      subst result
      cases delivery with
      | unclosedComment interpolations elements receipt =>
          -- A literal is no `--`.
          cases Element.received_of_receipt receipt with
          | comment phase decrement =>
              have encloses := literal.kind_encloses
              rw [← (StringLiteral.read_closed_places reading).1, decrement] at encloses
              cases encloses
  | @lexeme scanned lexeme _ ready literal remaining success found delivery =>
      subst result
      cases delivery with
      | @unclosedComment element _ outer lt _ interpolations elements receipt unclosed =>
          obtain ⟨⟨bang, opens⟩, stop, before⟩ := run.opensMarkupComment ready literal
            interpolations success found elements receipt
          have outside : lexer.interpolations = [] := interpolations
          have closed : lexer.openLiterals = [] := by simp [openLiterals, literal, outside]
          rw [markupComment_error unclosed]
          refine ⟨.inr ⟨lt, bang, lexeme, opens, ?_⟩, before, ?_⟩
          · rw [stop]
            rfl
          · intro around opened
            rw [closed] at opened
            cases opened
  | _ => cases result

end

end Lexer

/-- Where the lexing of a source fails, the error points at the construct that could not
be read: its span is cut out of the source, and starts at the cursor, at the innermost
open literal or at the `<` of a markup comment.  All tokens before the error end before
that construct, and no open literal starts behind it.  A text that ends inside of a
literal is never lexed, and it is the innermost open literal that is reported. -/
theorem errors_point_at_constructs (source : Source) :
    (∀ error, tokenize source.content = .error error →
      source.span? error.span.start error.span.stop = some error.span ∧
      ∃ last after, Lexer.Run source.content (Lexer.ofText source.content).handedOut last ∧
        last.step = .pulled (.failed error after) ∧ error.PointsAt source.content last ∧
        (∀ token, token ∈ (Lexer.ofText source.content).handedOut →
          token.span.stop ≤ error.span.start) ∧
        ∀ literal, literal ∈ last.openLiterals → literal.start.offset ≤ error.span.start) ∧
    ∀ tokens lexer literal, Lexer.Run source.content tokens lexer → lexer.EndsInside literal →
      tokenize source.content = .error (literal.unclosed lexer.cursor) ∧
        ∀ other, other ∈ lexer.openLiterals →
          other = literal ∨ other.start.offset < literal.start.offset := by
  constructor
  · intro error failure
    obtain ⟨last, after, run, failed⟩ := failing_step failure
    have blames := run.blames failed
    exact ⟨(run.error_placed failed).span?_eq, last, after, run, failed, blames.construct,
      blames.behind, blames.innermost⟩
  · intro tokens lexer literal run ends
    obtain ⟨outer, literals⟩ := ends.openLiterals_eq
    have ready : lexer.ready = [] := by
      by_contra waiting
      have closed := run.nested.waiting waiting
      rw [literals] at closed
      cases closed
    constructor
    · exact run.tokenize_of_failed (ends.step ready)
    · intro other member
      exact run.nested.start_le literals member

/-- A string inside of an interpolation of another one, both without an end: the
inner quote is reported. -/
theorem inner_quote_blamed :
    let source : Source := { path := "a.hack", content := "\"\x7b\"".toList }
    let error : LexicalError :=
      { cause := .unterminatedString .double, span := { start := 2, text := ['"'] }, line := 0 }
    tokenize source.content = .error error ∧
      (source.span? 2 3 = some error.span ∧
        ∃ last after, Lexer.Run source.content (Lexer.ofText source.content).handedOut last ∧
          last.step = .pulled (.failed error after) ∧ error.PointsAt source.content last ∧
          (∀ token, token ∈ (Lexer.ofText source.content).handedOut →
            token.span.stop ≤ error.span.start) ∧
          ∀ literal, literal ∈ last.openLiterals → literal.start.offset ≤ error.span.start) ∧
      ∃ tokens lexer literal, Lexer.Run source.content tokens lexer ∧
        lexer.EndsInside literal ∧ lexer.literalStarts = [2, 0] ∧
        tokenize source.content = .error (literal.unclosed lexer.cursor) ∧
        ∀ other, other ∈ lexer.openLiterals →
          other = literal ∨ other.start.offset < literal.start.offset := by
  intro source error
  have failure : tokenize source.content = .error error := by decide +kernel
  have points := errors_point_at_constructs source
  have quoted : Lexer.Run source.content [] _ := .moved .start rfl
  have interrupted : Lexer.Run source.content [] _ := .moved quoted rfl
  have inner : Lexer.Run source.content [] _ := .moved interrupted rfl
  refine ⟨failure, points.1 error failure, [], _, _, inner, .inl ⟨rfl, rfl⟩, rfl, ?_⟩
  exact points.2 [] _ _ inner (.inl ⟨rfl, rfl⟩)

end HackLexer
