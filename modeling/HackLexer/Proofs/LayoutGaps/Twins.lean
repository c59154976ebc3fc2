import HackLexer.Proofs.LayoutGaps.Fillings
import HackLexer.Proofs.OpenElements
import Mathlib.Data.List.Forall2

/-!
# Twins of cursors, lexemes and elements

Two texts differ in one gap.  What lexing makes of the one has its twin in the other:
in front of the gap the two have the same measures, behind it they are shifted.  A
lexeme that goes over the gap has a value, which its twin shares.

The value of a closing tag is made of the characters of lexemes.  If the tag is read
behind the gap, these lexemes stand behind the gap too and have the same characters as
their twins.  So twins of elements receive twins of lexemes alike.
-/

namespace HackLexer

/-- A part of the original text behind the gap, and the same part of the changed
text. -/
structure Span.Moved (gap : LayoutGap) (span moved : Span) : Prop where
  text : moved.text = span.text
  start : moved.start + Text.byteLength gap.old = span.start + Text.byteLength gap.new
  later : gap.stop ≤ span.start

/-- A token of the original text, and what it is in the changed text. -/
structure Token.Regapped (gap : LayoutGap) (token changed : Token) : Prop where
  kind : changed.kind = token.kind
  text : changed.text = token.text
  before : token.span.stop ≤ gap.start → changed.span = token.span ∧ changed.line = token.line
  behind : gap.stop ≤ token.span.start → token.span.Moved gap changed.span ∧
    changed.line + Text.lineFeeds gap.old = token.line + Text.lineFeeds gap.new

/-- A comment of the original text behind the gap, and the same comment of the changed
text. -/
structure Comment.Moved (gap : LayoutGap) (comment moved : Comment) : Prop where
  kind : moved.kind = comment.kind
  span : comment.span.Moved gap moved.span

/-- The comments of the original text, and those of the changed text: the comments of
the gap stand behind the ones before it. -/
def LayoutGap.Regaps (gap : LayoutGap) (comments changed : List Comment) : Prop :=
  ∃ before behind moved, comments = before ++ behind ∧
    changed = before ++ gap.comments ++ moved ∧
    (∀ comment, comment ∈ before → comment.span.stop ≤ gap.start) ∧
    List.Forall₂ (Comment.Moved gap) behind moved

variable {gap : LayoutGap}

namespace Cursor

/-- A place in front of the gap; what follows it differs only in the gap. -/
structure Before (gap : LayoutGap) (cursor twin : Cursor) : Prop where
  offset : twin.offset = cursor.offset
  line : twin.line = cursor.line
  rests : ∃ text, cursor.offset + Text.byteLength text = gap.start ∧
    cursor.rest = text ++ (gap.old ++ gap.back) ∧ twin.rest = text ++ (gap.new ++ gap.back)

/-- A place behind the gap. -/
structure Behind (gap : LayoutGap) (cursor twin : Cursor) : Prop where
  rest : twin.rest = cursor.rest
  offset : twin.offset + Text.byteLength gap.old = cursor.offset + Text.byteLength gap.new
  line : twin.line + Text.lineFeeds gap.old = cursor.line + Text.lineFeeds gap.new
  later : gap.stop ≤ cursor.offset

/-- A place on either side of the gap. -/
def Twins (gap : LayoutGap) (cursor twin : Cursor) : Prop :=
  cursor.Before gap twin ∨ cursor.Behind gap twin

variable {cursor twin start stop startTwin stopTwin : Cursor}

theorem Before.offset_le (before : cursor.Before gap twin) : cursor.offset ≤ gap.start := by
  obtain ⟨text, whole, _⟩ := before.rests
  omega

theorem Twins.before (twins : cursor.Twins gap twin) (earlier : cursor.offset ≤ gap.start) :
    cursor.Before gap twin := by
  apply twins.resolve_right
  intro behind
  have later := behind.later
  have apart := gap.start_lt_stop
  omega

theorem Twins.behind (twins : cursor.Twins gap twin) (later : gap.stop ≤ cursor.offset) :
    cursor.Behind gap twin := by
  apply twins.resolve_left
  intro before
  have earlier := before.offset_le
  have apart := gap.start_lt_stop
  omega

theorem Before.spanTo (first : start.Before gap startTwin) (last : stop.Before gap stopTwin) :
    startTwin.spanTo stopTwin = start.spanTo stop := by
  obtain ⟨text, whole, rest, restTwin⟩ := first.rests
  have within : stop.offset - start.offset ≤ Text.byteLength text := by
    have earlier := last.offset_le
    omega
  simp only [Cursor.spanTo, first.offset, last.offset, rest, restTwin,
    Text.takeBytes_append_of_le _ within]

theorem Behind.spanTo (first : start.Behind gap startTwin) (last : stop.Behind gap stopTwin) :
    (start.spanTo stop).Moved gap (startTwin.spanTo stopTwin) where
  text := by
    have length : stopTwin.offset - startTwin.offset = stop.offset - start.offset := by
      have near := first.offset
      have far := last.offset
      omega
    simp only [Cursor.spanTo, first.rest, length]
  start := first.offset
  later := first.later

theorem Behind.advance (behind : cursor.Behind gap twin) (count : Nat) :
    (cursor.advance count).Behind gap (twin.advance count) where
  rest := by simp only [rest_advance, behind.rest]
  offset := by
    have here := behind.offset
    simp only [Cursor.advance, behind.rest]
    omega
  line := by
    have here := behind.line
    simp only [Cursor.advance, behind.rest]
    omega
  later := Nat.le_trans behind.later (Reaches.advance cursor count).offset_le

end Cursor

/-- A lexeme of the original text, and its twin. -/
structure Lexeme.Twins (gap : LayoutGap) (lexeme twin : Lexeme) : Prop where
  kind : twin.kind = lexeme.kind
  literal : twin.literal = lexeme.literal
  start : lexeme.start.Twins gap twin.start
  stop : lexeme.stop.Twins gap twin.stop
  /-- A lexeme that goes over the gap has a value. -/
  valued : lexeme.start.offset ≤ gap.start → gap.stop ≤ lexeme.stop.offset →
    lexeme.literal ≠ none

namespace Lexeme.Twins

variable {lexeme twin : Lexeme}

section

variable (twins : lexeme.Twins gap twin) (reaches : lexeme.start.Reaches lexeme.stop)

include twins reaches

theorem spans_behind (later : gap.stop ≤ lexeme.start.offset) :
    lexeme.span.Moved gap twin.span :=
  (twins.start.behind later).spanTo
    (twins.stop.behind (Nat.le_trans later reaches.offset_le))

theorem text_eq : twin.token.text = lexeme.token.text := by
  change twin.literal.getD twin.span.text = lexeme.literal.getD lexeme.span.text
  rw [twins.literal]
  cases literal : lexeme.literal with
  | some value => rfl
  | none =>
      rcases twins.start with before | behind
      · rcases twins.stop with stop | stop
        · exact congrArg Span.text (before.spanTo stop)
        · exact absurd literal (twins.valued before.offset_le stop.later)
      · exact (twins.spans_behind reaches behind.later).text

theorem token : lexeme.token.Regapped gap twin.token where
  kind := twins.kind
  text := twins.text_eq reaches
  before ends := by
    have stop : lexeme.token.span.stop = lexeme.stop.offset := reaches.stop_spanTo
    rw [stop] at ends
    have first := twins.start.before (Nat.le_trans reaches.offset_le ends)
    exact ⟨first.spanTo (twins.stop.before ends), first.line⟩
  behind begins := ⟨twins.spans_behind reaches begins, (twins.start.behind begins).line⟩

end

theorem flatMap_raw {names twins : List Lexeme}
    (alike : List.Forall₂ (Lexeme.Twins gap) names twins)
    (later : ∀ name, name ∈ names →
      gap.stop ≤ name.start.offset ∧ name.start.Reaches name.stop) :
    twins.flatMap Lexeme.raw = names.flatMap Lexeme.raw := by
  induction alike with
  | nil => rfl
  | @cons name twin names twins first _ ih =>
      obtain ⟨behind, reaches⟩ := later name List.mem_cons_self
      rw [List.flatMap_cons, List.flatMap_cons,
        ih fun other member => later other (List.mem_cons_of_mem _ member)]
      exact congrArg (· ++ _) (first.spans_behind reaches behind).text

end Lexeme.Twins

theorem regapped_tokens {lexemes twins : List Lexeme}
    (alike : List.Forall₂ (Lexeme.Twins gap) lexemes twins)
    (joined : ∀ lexeme, lexeme ∈ lexemes → lexeme.start.Reaches lexeme.stop) :
    List.Forall₂ (Token.Regapped gap) (lexemes.map Lexeme.token) (twins.map Lexeme.token) := by
  induction alike with
  | nil => exact .nil
  | @cons lexeme twin lexemes twins first _ ih =>
      exact .cons (first.token (joined lexeme List.mem_cons_self))
        (ih fun other member => joined other (List.mem_cons_of_mem _ member))

/-- Twins of phases.  A closing tag is one whose slash stands behind the gap. -/
inductive ElementPhase.Twins (gap : LayoutGap) : ElementPhase → ElementPhase → Prop where
  | openingTag : Twins gap .openingTag .openingTag
  | children : Twins gap .children .children
  | closingTag {lt slash ltTwin slashTwin : Lexeme} {names nameTwins : List Lexeme}
      (opener : lt.Twins gap ltTwin) (second : slash.Twins gap slashTwin)
      (later : gap.stop ≤ slash.start.offset)
      (alike : List.Forall₂ (Lexeme.Twins gap) names nameTwins) :
      Twins gap (.closingTag lt slash names) (.closingTag ltTwin slashTwin nameTwins)

structure Element.Twins (gap : LayoutGap) (element twin : Element) : Prop where
  name : element.name.Twins gap twin.name
  content : List.Forall₂ (Lexeme.Twins gap) element.content twin.content
  phase : element.phase.Twins gap twin.phase

namespace Element

/-- What becomes of an element of the original text, and of its twin. -/
inductive Receipt.Twins (gap : LayoutGap) : Receipt → Receipt → Prop where
  | collecting {element twin : Element} (alike : element.Twins gap twin) :
      Twins gap (.collecting element) (.collecting twin)
  | complete {lexemes twins : List Lexeme}
      (alike : List.Forall₂ (Lexeme.Twins gap) lexemes twins) :
      Twins gap (.complete lexemes) (.complete twins)
  | comment {lt ltTwin : Lexeme} {element twin : Element} (opener : lt.Twins gap ltTwin)
      (alike : element.Twins gap twin) : Twins gap (.comment lt element) (.comment ltTwin twin)

namespace Twins

variable {element twin : Element}

theorem lexemes (twins : element.Twins gap twin) :
    List.Forall₂ (Lexeme.Twins gap) element.lexemes twin.lexemes := by
  obtain ⟨name, content, phase⟩ := element
  obtain ⟨nameTwin, contentTwin, phaseTwin⟩ := twin
  obtain ⟨first, collected, phases⟩ := twins
  refine .cons first (List.rel_append (List.rel_reverse collected) ?_)
  cases phases with
  | openingTag => exact .nil
  | children => exact .nil
  | closingTag opener second _ alike =>
      exact .cons opener (.cons second (List.rel_reverse alike))

theorem push {lexeme lexemeTwin : Lexeme} (twins : element.Twins gap twin)
    (given : lexeme.Twins gap lexemeTwin) : (element.push lexeme).Twins gap (twin.push lexemeTwin) :=
  { twins with content := .cons given twins.content }

theorem extend {given givenTwins : List Lexeme} (twins : element.Twins gap twin)
    (alike : List.Forall₂ (Lexeme.Twins gap) given givenTwins) :
    (element.extend given).Twins gap (twin.extend givenTwins) := by
  obtain ⟨name, content, phase⟩ := element
  obtain ⟨nameTwin, contentTwin, phaseTwin⟩ := twin
  obtain ⟨first, collected, phases⟩ := twins
  have longer := List.rel_append (List.rel_reverse alike) collected
  cases phases with
  | openingTag => exact ⟨first, longer, .openingTag⟩
  | children => exact ⟨first, longer, .children⟩
  | closingTag opener second later names =>
      exact ⟨first, collected,
        .closingTag opener second later (List.rel_append (List.rel_reverse alike) names)⟩

theorem closing {lt gt ltTwin gtTwin : Lexeme} {names nameTwins : List Lexeme}
    (opener : lt.Twins gap ltTwin) (last : gt.Twins gap gtTwin)
    (value : nameTwins.flatMap Lexeme.raw = names.flatMap Lexeme.raw) :
    (Element.closing lt gt names).Twins gap (Element.closing ltTwin gtTwin nameTwins) where
  kind := rfl
  literal := congrArg some value
  start := opener.start
  stop := last.stop
  valued _ _ := nofun

section

variable {name nameTwin lexeme lexemeTwin : Lexeme} {content contentTwin : List Lexeme}

theorem receive_openingTag (first : name.Twins gap nameTwin)
    (collected : List.Forall₂ (Lexeme.Twins gap) content contentTwin)
    (given : lexeme.Twins gap lexemeTwin) :
    (Element.receive { name, content, phase := .openingTag } lexeme).Twins gap
      (Element.receive { name := nameTwin, content := contentTwin, phase := .openingTag }
        lexemeTwin) := by
  have before : Element.Twins gap { name, content, phase := .openingTag }
      { name := nameTwin, content := contentTwin, phase := .openingTag } :=
    ⟨first, collected, .openingTag⟩
  have pushed := before.push given
  have head : contentTwin.head?.map Lexeme.kind = content.head?.map Lexeme.kind := by
    cases collected with
    | nil => rfl
    | cons latest _ => exact congrArg some latest.kind
  simp only [receive, given.kind, head]
  split
  · split
    · exact .complete pushed.lexemes
    · exact .collecting { pushed with phase := .children }
  · exact .collecting pushed

theorem receive_children (first : name.Twins gap nameTwin)
    (collected : List.Forall₂ (Lexeme.Twins gap) content contentTwin)
    (given : lexeme.Twins gap lexemeTwin) (later : gap.stop ≤ lexeme.start.offset) :
    (Element.receive { name, content, phase := .children } lexeme).Twins gap
      (Element.receive { name := nameTwin, content := contentTwin, phase := .children }
        lexemeTwin) := by
  rw [Element.receive_children, Element.receive_children, given.kind]
  cases collected with
  | nil => exact .collecting ⟨first, .cons given .nil, .children⟩
  | cons latest before =>
      dsimp only
      rw [latest.kind]
      split
      · exact .collecting ⟨first, before, .closingTag latest given later .nil⟩
      · cases before with
        | nil => exact .collecting ⟨first, .cons given (.cons latest .nil), .children⟩
        | cons second front =>
            dsimp only
            rw [second.kind]
            split
            · exact .comment second ⟨first, front, .children⟩
            · exact .collecting ⟨first, .cons given (.cons latest (.cons second front)), .children⟩

end

/-- Twins receive twins alike, if what is held stands in order. -/
theorem receive {lexeme lexemeTwin : Lexeme} (twins : element.Twins gap twin)
    (ordered : element.lexemes.Pairwise fun earlier later =>
      earlier.start.offset ≤ later.start.offset)
    (joined : ∀ held, held ∈ element.lexemes → held.start.Reaches held.stop)
    (given : lexeme.Twins gap lexemeTwin) (later : gap.stop ≤ lexeme.start.offset) :
    (element.receive lexeme).Twins gap (twin.receive lexemeTwin) := by
  obtain ⟨name, content, phase⟩ := element
  obtain ⟨nameTwin, contentTwin, phaseTwin⟩ := twin
  obtain ⟨first, collected, phases⟩ := twins
  cases phases with
  | openingTag => exact receive_openingTag first collected given
  | children => exact receive_children first collected given later
  | @closingTag lt slash ltTwin slashTwin names nameTwins opener second behind alike =>
      simp only [Element.receive, given.kind]
      split
      · have split : Element.lexemes { name, content, phase := .closingTag lt slash names } =
            (name :: content.reverse ++ [lt]) ++ slash :: names.reverse := by
          simp [Element.lexemes]
        -- The names stand behind the slash, and with it behind the gap.
        rw [split] at ordered joined
        have onward := (List.pairwise_cons.mp (List.pairwise_append.mp ordered).2.1).1
        have value := Lexeme.Twins.flatMap_raw (List.rel_reverse alike) fun held member =>
          ⟨Nat.le_trans behind (onward held member),
            joined held (List.mem_append_right _ (List.mem_cons_of_mem _ member))⟩
        have before : Element.Twins gap { name, content, phase := .children }
            { name := nameTwin, content := contentTwin, phase := .children } :=
          ⟨first, collected, .children⟩
        exact .complete (before.push (closing opener given value)).lexemes
      · exact .collecting ⟨first, collected, .closingTag opener second behind (.cons given alike)⟩

end Twins

theorem dissolve_twins {elements twins : List Element}
    (alike : List.Forall₂ (Element.Twins gap) elements twins) :
    List.Forall₂ (Lexeme.Twins gap) (dissolve elements) (dissolve twins) := by
  induction alike with
  | nil => exact .nil
  | cons first _ ih =>
      rw [dissolve_cons, dissolve_cons]
      exact List.rel_append ih first.lexemes

end Element

theorem markupComment_twins {lt ltTwin comment : Lexeme} {cursor twin : Cursor}
    (opener : lt.Twins gap ltTwin) (behind : cursor.Behind gap twin)
    (success : markupComment lt cursor = .ok comment) :
    ∃ commentTwin, markupComment ltTwin twin = .ok commentTwin ∧
      comment.Twins gap commentTwin ∧ comment.stop.Behind gap commentTwin.stop := by
  unfold markupComment at success ⊢
  rw [behind.rest]
  split at success
  · rename_i count _
    cases success
    have stop := behind.advance (count + 3)
    refine ⟨_, rfl, ?_, stop⟩
    exact
      { kind := rfl
        literal := rfl
        start := opener.start
        stop := .inr stop
        valued := fun _ _ => nofun }
  · cases success

end HackLexer
