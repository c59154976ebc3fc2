import HackLexer.Proofs.ByteAccounting
import HackLexer.Proofs.Exhaustion

/-!
# Comments that are passed over

Only a comment and a suppression marker make a scan pass over a comment.  A line
comment goes on to the line feed that ends its line, or to the end of the text.

`Lexer.Run.linesEnd` says this of all comments in the course of a run.
-/

namespace HackLexer

/-- A recogniser that passes over no comment. -/
def Uncommented (recognised : Recognised) : Prop :=
  ∀ scanned, recognised = some (.ok scanned) → scanned.comment = none

theorem Uncommented.orElse {first second : Recognised} (left : Uncommented first)
    (right : Uncommented second) : Uncommented (first <|> second) := by
  cases first with
  | none => exact right
  | some result => exact left

theorem layoutAt_uncommented (cursor : Cursor) : Uncommented (layoutAt cursor) := by
  intro scanned success
  unfold layoutAt at success
  split at success
  · cases success
    rfl
  · split at success
    · cases success
    · cases success
      rfl

theorem quotedAt_uncommented (cursor : Cursor) : Uncommented (quotedAt cursor) := by
  intro scanned success
  unfold quotedAt at success
  split at success
  · cases success
    rfl
  · split at success
    · cases success
    · cases success
      rfl
  · cases success

theorem docStringAt_uncommented (cursor : Cursor) : Uncommented (docStringAt cursor) := by
  intro scanned success
  unfold docStringAt at success
  split at success
  · split at success
    · cases success
    · dsimp only at success
      split at success
      · cases success
        rfl
      · split at success
        · cases success
        · cases success
          rfl
  · cases success

theorem tokenAt_uncommented (cursor : Cursor) (matched : Option (TokenKind × Nat)) :
    Uncommented (tokenAt cursor matched) := by
  intro scanned success
  obtain ⟨token, _, same⟩ := Option.map_eq_some_iff.mp success
  cases same
  rfl

theorem elementAt_uncommented (markup : Bool) (cursor : Cursor) :
    Uncommented (elementAt markup cursor) := by
  intro scanned success
  unfold elementAt at success
  split at success
  · obtain ⟨count, _, same⟩ := Option.map_eq_some_iff.mp success
    cases same
    rfl
  · cases success

theorem scan_commented {markup : Bool} {cursor : Cursor} {scanned : Scanned}
    {comment : Comment} (success : scan markup cursor = .ok scanned)
    (passed : scanned.comment = some comment) :
    markerAt cursor = some (.ok scanned) ∨ commentAt cursor = some (.ok scanned) := by
  have behind : Uncommented
      (quotedAt cursor <|> docStringAt cursor <|> tokenAt cursor (number? cursor.rest) <|>
        tokenAt cursor (word? cursor.rest) <|> tokenAt cursor (dollar? cursor.rest) <|>
        elementAt markup cursor <|> tokenAt cursor (punctuation? cursor.rest)) :=
    (quotedAt_uncommented cursor).orElse <| (docStringAt_uncommented cursor).orElse <|
      (tokenAt_uncommented cursor _).orElse <| (tokenAt_uncommented cursor _).orElse <|
      (tokenAt_uncommented cursor _).orElse <| (elementAt_uncommented markup cursor).orElse
      (tokenAt_uncommented cursor _)
  have commented (recognised : Recognised) (uncommented : Uncommented recognised) :
      recognised ≠ some (.ok scanned) := by
    intro found
    rw [uncommented scanned found] at passed
    cases passed
  have recognised : recognise markup cursor = some (.ok scanned) := by
    unfold scan at success
    cases result : recognise markup cursor with
    | none =>
        rw [result] at success
        cases success
    | some outcome =>
        rw [result] at success
        exact congrArg some success
  unfold recognise at recognised
  cases layout : layoutAt cursor with
  | some outcome =>
      rw [layout] at recognised
      exact absurd (layout.trans recognised) (commented _ (layoutAt_uncommented cursor))
  | none =>
      rw [layout] at recognised
      cases marker : markerAt cursor with
      | some outcome =>
          rw [marker] at recognised
          exact .inl recognised
      | none =>
          rw [marker] at recognised
          cases comment : commentAt cursor with
          | some outcome =>
              rw [comment] at recognised
              exact .inr recognised
          | none =>
              rw [comment] at recognised
              exact absurd recognised (commented _ behind)

theorem ScanSuccess.comment_stop {markup : Bool} {cursor : Cursor} {scanned : Scanned}
    {comment : Comment} (outcome : ScanSuccess markup cursor scanned)
    (passed : scanned.comment = some comment) : comment.span.stop = scanned.after.offset := by
  cases outcome with
  | comment kind count =>
      cases passed
      exact (Cursor.Reaches.advance cursor count).stop_spanTo
  | marker kind count positive marked form more =>
      cases passed
      exact (Cursor.Reaches.advance (cursor.advance count) more).stop_spanTo
  | _ => cases passed

/-- What is found, with a comment that is passed over behind it. -/
def Scanned.beforeComment (found : Found) (comment : Comment × Cursor) : Scanned :=
  { found, after := comment.2, comment := some comment.1 }

/-- What is recognised at a marker of known length. -/
def markedAt (cursor : Cursor) (kind : TokenKind) (count : Nat) : Except LexicalError Scanned :=
  let found : Found := .lexeme (cursor.lexeme kind count)
  if kind = .fixmeExpr then
    (blockComment cursor (cursor.advance count) 0).map (.beforeComment found)
  else
    .ok (.beforeComment found (lineComment (cursor.advance count)))

theorem markerAt_eq (cursor : Cursor) :
    markerAt cursor =
      (marker? cursor.rest).map fun marker => markedAt cursor marker.1 marker.2 := by
  unfold markerAt markedAt
  cases found : marker? cursor.rest with
  | none => rfl
  | some marker =>
      obtain ⟨kind, count⟩ := marker
      rcases marker?_kind found with rfl | rfl
      · rfl
      · rfl

/-- What a scan has found in front of a comment: nothing or a marker. -/
def Found.IsMarked (cursor : Cursor) (found : Found) : Prop :=
  found = .layout ∨ ∃ kind count, marker? cursor.rest = some (kind, count) ∧
    found = .lexeme (cursor.lexeme kind count)

/-- A scan at a cursor that passes over a comment. -/
structure Scanned.Passes (cursor : Cursor) (comment : Comment) (scanned : Scanned) : Prop where
  marked : scanned.found.IsMarked cursor
  ended : comment.kind = .line →
    comment.span.text.getLast? = some '\n' ∨ scanned.after.rest = []

/-- A line comment ends with a line feed or at the end of the text. -/
theorem lineComment_ends (start : Cursor) :
    (lineComment start).1.span.text.getLast? = some '\n' ∨ (lineComment start).2.rest = [] := by
  unfold lineComment
  dsimp only
  rw [Cursor.spanTo_advance, Cursor.rest_advance]
  rcases Text.findFrom_feed start.rest 0 with
    ⟨line, behind, whole, _, count, _⟩ | ⟨_, count, _⟩
  · left
    have taken : start.rest.take (line.length + 1) = line ++ ['\n'] := by
      rw [whole, List.take_length_add_append]
      rfl
    rw [count, taken]
    exact List.getLast?_concat
  · right
    rw [count]
    exact List.drop_of_length_le (Nat.le_succ _)

theorem blockComment_kind {opening start : Cursor} {skipped : Nat} {result : Comment × Cursor}
    (success : blockComment opening start skipped = .ok result) : result.1.kind = .block := by
  unfold blockComment at success
  split at success
  · cases success
    rfl
  · cases success

section

variable {cursor : Cursor} {scanned : Scanned} {comment : Comment} {found : Found}

theorem passes_lineComment (marked : found.IsMarked cursor) {start : Cursor}
    (scans : .beforeComment found (lineComment start) = scanned)
    (passed : scanned.comment = some comment) : scanned.Passes cursor comment := by
  subst scans
  cases passed
  exact ⟨marked, fun _ => lineComment_ends start⟩

theorem passes_blockComment (marked : found.IsMarked cursor) {opening start : Cursor}
    {skipped : Nat}
    (scans : (blockComment opening start skipped).map (.beforeComment found) = .ok scanned)
    (passed : scanned.comment = some comment) : scanned.Passes cursor comment := by
  cases closed : blockComment opening start skipped with
  | error error =>
      rw [closed] at scans
      cases scans
  | ok block =>
      rw [closed] at scans
      cases scans
      cases passed
      refine ⟨marked, ?_⟩
      intro line
      rw [blockComment_kind closed] at line
      cases line

theorem markerAt_passes (scans : markerAt cursor = some (.ok scanned))
    (passed : scanned.comment = some comment) : scanned.Passes cursor comment := by
  rw [markerAt_eq] at scans
  obtain ⟨⟨kind, count⟩, marker, scans⟩ := Option.map_eq_some_iff.mp scans
  have marked : (Found.lexeme (cursor.lexeme kind count)).IsMarked cursor :=
    .inr ⟨kind, count, marker, rfl⟩
  unfold markedAt at scans
  dsimp only at scans
  split at scans
  · exact passes_blockComment marked scans passed
  · exact passes_lineComment marked (Except.ok.inj scans) passed

theorem commentAt_passes (scans : commentAt cursor = some (.ok scanned))
    (passed : scanned.comment = some comment) : scanned.Passes cursor comment := by
  simp only [commentAt] at scans
  split at scans
  · exact passes_blockComment (.inl rfl) (Option.some.inj scans) passed
  · exact passes_lineComment (.inl rfl) (Except.ok.inj (Option.some.inj scans)) passed
  · exact passes_lineComment (.inl rfl) (Except.ok.inj (Option.some.inj scans)) passed
  · cases scans

theorem scan_passes {markup : Bool} (success : scan markup cursor = .ok scanned)
    (passed : scanned.comment = some comment) : scanned.Passes cursor comment := by
  rcases scan_commented success passed with marker | commented
  · exact markerAt_passes marker passed
  · exact commentAt_passes commented passed

end

namespace Lexer

/-- The line comments passed over so far end with a line feed, or else the cursor
is at the end of the text. -/
def LinesEnd (lexer : Lexer) : Prop :=
  ∀ comment, comment ∈ lexer.comments → comment.kind = .line →
    comment.span.text.getLast? = some '\n' ∨ lexer.cursor.rest = []

theorem LinesEnd.moveTo {lexer after : Lexer} (ends : lexer.LinesEnd)
    (comments : after.comments = lexer.comments)
    (reaches : lexer.cursor.Reaches after.cursor) : after.LinesEnd := by
  intro comment member line
  rw [comments] at member
  rcases ends comment member line with feed | finished
  · exact .inl feed
  · right
    obtain ⟨count, moved⟩ := reaches
    rw [moved, Cursor.rest_advance, finished, List.drop_nil]

theorem LinesEnd.passing {lexer : Lexer} {markup : Bool} {scanned : Scanned}
    (ends : lexer.LinesEnd) (remaining : lexer.cursor.rest ≠ [])
    (success : scan markup lexer.cursor = .ok scanned) : (lexer.passing scanned).LinesEnd := by
  intro comment member line
  have earlier (before : comment ∈ lexer.comments) :
      comment.span.text.getLast? = some '\n' :=
    (ends comment before line).resolve_right remaining
  cases passed : scanned.comment with
  | none =>
      simp only [Lexer.passing, Scanned.commentsBehind, passed] at member
      exact .inl (earlier member)
  | some last =>
      simp only [Lexer.passing, Scanned.commentsBehind, passed, Array.mem_push] at member
      rcases member with before | rfl
      · exact .inl (earlier before)
      · exact (scan_passes success passed).ended line

theorem Delivery.comments_eq {lexer : Lexer} {lexeme : Lexeme} {step : Step}
    (delivery : lexer.Delivery lexeme step) : step.after.comments = lexer.comments := by
  cases delivery with
  | complete => exact comments_handBack _ _
  | _ => rfl

theorem comments_finish (lexer : Lexer) : lexer.finish.after.comments = lexer.comments := by
  unfold finish
  split
  · rfl
  · split
    · rfl
    · rfl

theorem LinesEnd.turn {lexer : Lexer} {step : Step} (ends : lexer.LinesEnd)
    (turn : lexer.Turn step) : step.after.LinesEnd := by
  have reaches := turn.reaches
  cases turn with
  | ready => exact ends.moveTo rfl reaches
  | closed ready opened reading delivery => exact ends.moveTo delivery.comments_eq reaches
  | interrupted => exact ends.moveTo rfl reaches
  | unclosed => exact ends
  | finished => exact ends.moveTo lexer.comments_finish reaches
  | failed => exact ends
  | layout ready literal remaining success => exact ends.passing remaining success
  | lexeme ready literal remaining success found delivery =>
      exact (ends.passing remaining success).moveTo delivery.comments_eq delivery.reaches
  | literal ready literal remaining success =>
      exact (ends.passing remaining success).moveTo rfl (.refl _)
  | element ready literal remaining success =>
      exact (ends.passing remaining success).moveTo rfl (.refl _)

theorem Run.linesEnd {text : Text} {tokens : List Token} {lexer : Lexer}
    (run : Run text tokens lexer) : lexer.LinesEnd := by
  induction run with
  | start =>
      intro comment member
      cases Array.not_mem_empty comment member
  | @moved tokens lexer after run step ih =>
      have kept := ih.turn lexer.step_turn
      rwa [step] at kept
  | @token tokens lexer after token run step ih =>
      have kept := ih.turn lexer.step_turn
      rwa [step] at kept
  | @endOfText tokens lexer after run step ih =>
      have kept := ih.turn lexer.step_turn
      rwa [step] at kept

end Lexer

end HackLexer
