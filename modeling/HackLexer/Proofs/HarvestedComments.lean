import HackLexer.Proofs.CommentShapes
import HackLexer.Proofs.Grammar.Tokens
import HackLexer.Proofs.Relexing

/-!
# Harvested comments

The comments that lexing collects look like comments, for in the course of a run
comments are only added, and each is one that a scan has passed over.

Conversely a marker that is handed out is followed by the rest of its comment.
This is carried along for the tokens handed out and everything that a lexer holds.

The main statement is `comments_harvested`.
-/

namespace HackLexer

/-- The form of the comment that is to follow a token of a kind. -/
def TokenKind.commentBehind? : TokenKind → Option CommentKind
  | .unsafeExpr => some .line
  | .fixmeExpr => some .block
  | _ => none

/-- If the token is a marker, the rest of its comment is among the comments. -/
def Token.Continued (comments : Array Comment) (token : Token) : Prop :=
  ∀ form, token.kind.commentBehind? = some form →
    ∃ comment, comment ∈ comments ∧ comment.kind = form ∧ comment.span.start = token.span.stop

theorem Token.continued_of_none {token : Token} (plain : token.kind.commentBehind? = none)
    (comments : Array Comment) : token.Continued comments := by
  intro form marked
  rw [plain] at marked
  cases marked

/-- What the language of a marker describes is recognised, whatever follows it. -/
theorem markerAfter?_of_mem_marker {opener name : String} {first second start : Char}
    {more marker : Text} (opening : opener.toList = [first, second])
    (named : name.toList = start :: more) (solid : isBlank start = false)
    (spelled : marker ∈ Grammar.marker opener name) (rest : Text) :
    ∃ behind, marker ++ rest = first :: second :: behind ∧
      markerAfter? name.toList behind = some marker.length := by
  obtain ⟨_, ⟨_, rfl, blanks, blank, rfl⟩, _, rfl, rfl⟩ := spelled
  have count : Text.countWhile isBlank (blanks ++ (name.toList ++ rest)) = blanks.length := by
    unfold Text.countWhile
    rw [List.takeWhile_append_of_pos (Grammar.mem_star_oneOf.mp blank), named, List.cons_append,
      List.takeWhile_cons_of_neg (by simp [solid]), List.append_nil]
  refine ⟨blanks ++ (name.toList ++ rest), by simp [opening], ?_⟩
  unfold markerAfter?
  simp only [count]
  rw [List.drop_left, if_pos (List.isPrefixOf_iff_prefix.mpr (List.prefix_append _ rest))]
  simp [opening]
  omega

theorem marker?_append {kind : TokenKind} {form : CommentKind} {marker : Text}
    (opens : kind.commentBehind? = some form) (spelled : marker ∈ kind.language) (rest : Text) :
    marker? (marker ++ rest) = some (kind, marker.length) := by
  unfold TokenKind.commentBehind? at opens
  split at opens
  · obtain ⟨behind, same, found⟩ :=
      @markerAfter?_of_mem_marker "//" "UNSAFE_EXPR" '/' '/' 'U' _ marker rfl rfl rfl spelled rest
    rw [same]
    change Option.map _ (markerAfter? _ behind) = _
    rw [found]
    rfl
  · obtain ⟨behind, same, found⟩ :=
      @markerAfter?_of_mem_marker "/*" "HH_FIXME" '/' '*' 'H' _ marker rfl rfl rfl spelled rest
    rw [same]
    change Option.map _ (markerAfter? _ behind) = _
    rw [found]
    rfl
  · cases opens

theorem blockComment_start {opening start : Cursor} {skipped : Nat} {result : Comment × Cursor}
    (success : blockComment opening start skipped = .ok result) :
    result.1.span.start = start.offset := by
  unfold blockComment at success
  split at success
  · cases success
    rfl
  · cases success

theorem markedAt_passes {cursor : Cursor} {kind : TokenKind} {form : CommentKind} {count : Nat}
    {scanned : Scanned} (opens : kind.commentBehind? = some form)
    (marked : markedAt cursor kind count = .ok scanned) :
    scanned.found = .lexeme (cursor.lexeme kind count) ∧
      ∃ comment, scanned.comment = some comment ∧ comment.kind = form ∧
        comment.span.start = (cursor.advance count).offset := by
  unfold markedAt at marked
  unfold TokenKind.commentBehind? at opens
  split at opens
  · cases opens
    cases marked
    exact ⟨rfl, _, rfl, rfl, rfl⟩
  · cases opens
    rw [if_pos rfl] at marked
    cases closed : blockComment cursor (cursor.advance count) 0 with
    | error error =>
        rw [closed] at marked
        cases marked
    | ok result =>
        rw [closed] at marked
        cases marked
        exact ⟨rfl, result.1, rfl, blockComment_kind closed, blockComment_start closed⟩
  · cases opens

/-- A marker that a scan finds is followed by the comment that it passes over. -/
theorem scan_continues {markup : Bool} {cursor : Cursor} {scanned : Scanned} {lexeme : Lexeme}
    (success : scan markup cursor = .ok scanned) (found : scanned.found = .lexeme lexeme)
    (comments : Array Comment) : lexeme.token.Continued (scanned.commentsBehind comments) := by
  intro form opens
  have outcome := scan_success success
  have justified := scan_justified success
  rw [found] at justified
  obtain ⟨count, stop⟩ := outcome.lexeme_reaches found
  have text : lexeme.token.span.text = cursor.rest.take count := by
    change (lexeme.start.spanTo lexeme.stop).text = _
    rw [stop, Cursor.spanTo_advance, outcome.lexeme_start found]
  have spelled := justified.1.spelled
  rw [text] at spelled
  have marker := marker?_append opens spelled (cursor.rest.drop count)
  rw [List.take_append_drop] at marker
  rw [scan_of_marker marker] at success
  obtain ⟨here, comment, passed, same, start⟩ := markedAt_passes opens success
  have there := congrArg Lexeme.stop (Found.lexeme.inj (found.symm.trans here))
  have stops : lexeme.token.span.stop = lexeme.stop.offset :=
    (outcome.lexeme_reaches found).stop_spanTo
  refine ⟨comment, ?_, same, ?_⟩
  · unfold Scanned.commentsBehind
    rw [passed]
    exact Array.mem_push_self
  · rw [start, stops, there]
    rfl

namespace Lexer

/-- The comments collected so far look like comments, and what has been handed out or is
held is followed by its comment, if it is a marker. -/
structure Harvests (text : Text) (tokens : List Token) (lexer : Lexer) : Prop where
  comments : ∀ comment, comment ∈ lexer.comments → comment.HarvestedFrom text
  continued : ∀ token, token ∈ tokens ++ lexer.stock → token.Continued lexer.comments

namespace Harvests

variable {text : Text} {tokens : List Token} {lexer : Lexer}

theorem ofText (text : Text) : Harvests text [] (.ofText text) where
  comments := by simp [Lexer.ofText]
  continued := by simp [stock, Lexer.ofText]

/-- What enters the stock is no marker without its comment. -/
theorem restock {after : Lexer} (harvests : Harvests text tokens lexer)
    (comments : after.comments = lexer.comments)
    (entries : ∀ token, token ∈ after.stock →
      token ∈ lexer.stock ∨ token.Continued lexer.comments) :
    Harvests text tokens after where
  comments := by
    rw [comments]
    exact harvests.comments
  continued := by
    intro token member
    rw [comments]
    rcases List.mem_append.mp member with handed | held
    · exact harvests.continued token (List.mem_append_left _ handed)
    · rcases entries token held with before | given
      · exact harvests.continued token (List.mem_append_right _ before)
      · exact given

theorem handing {token : Token} (harvests : Harvests text tokens lexer)
    (given : token.Continued lexer.comments) : Harvests text (tokens ++ [token]) lexer where
  comments := harvests.comments
  continued := by
    intro entry member
    rw [List.append_assoc, List.singleton_append] at member
    rcases List.mem_append.mp member with handed | rest
    · exact harvests.continued entry (List.mem_append_left _ handed)
    · rcases List.mem_cons.mp rest with rfl | held
      · exact given
      · exact harvests.continued entry (List.mem_append_right _ held)

theorem passing {markup : Bool} {scanned : Scanned} (harvests : Harvests text tokens lexer)
    (place : lexer.cursor.IsPlaceOf text) (success : scan markup lexer.cursor = .ok scanned) :
    Harvests text tokens (lexer.passing scanned) where
  comments := by
    intro comment member
    cases passed : scanned.comment with
    | none =>
        simp only [Lexer.passing, Scanned.commentsBehind, passed] at member
        exact harvests.comments comment member
    | some last =>
        simp only [Lexer.passing, Scanned.commentsBehind, passed, Array.mem_push] at member
        rcases member with before | rfl
        · exact harvests.comments comment before
        · exact scan_harvests place success passed
  continued := by
    intro token member form opens
    obtain ⟨comment, before, behind⟩ := harvests.continued token member form opens
    refine ⟨comment, ?_, behind⟩
    cases passed : scanned.comment with
    | none => simpa only [Lexer.passing, Scanned.commentsBehind, passed] using before
    | some last =>
        simp only [Lexer.passing, Scanned.commentsBehind, passed, Array.mem_push]
        exact .inl before

theorem delivery {lexeme : Lexeme} {step : Step} (harvests : Harvests text tokens lexer)
    (given : lexeme.token.Continued lexer.comments) (delivery : lexer.Delivery lexeme step) :
    step.Keeps (Harvests text) (fun _ => True) tokens := by
  cases delivery with
  | within => exact harvests.restock rfl fun token held => .inl held
  | ended => exact harvests.restock rfl fun token held => .inl held
  | token => exact harvests.handing given
  | @collecting element after outer interpolations elements receipt =>
      have stock : { lexer with elements := after :: outer }.stock =
          lexer.stock ++ [lexeme.token] := by
        simp [Lexer.stock, elements, Element.lexemes_of_collecting receipt]
      refine harvests.restock rfl fun token member => ?_
      rw [stock] at member
      rcases List.mem_append.mp member with before | last
      · exact .inl before
      · exact .inr (List.mem_singleton.mp last ▸ given)
  | @complete element outer lexemes interpolations elements receipt =>
      refine harvests.restock (comments_handBack _ _) fun token member => ?_
      rw [stock_handBack] at member
      have around : lexer.stock =
          { lexer with elements := outer }.stock ++ element.lexemes.map Lexeme.token := by
        simp [Lexer.stock, elements]
      rw [around]
      rcases List.mem_append.mp member with before | new
      · exact .inl (List.mem_append_left _ before)
      · obtain ⟨inside, insideMember, rfl⟩ := List.mem_map.mp new
        rcases Element.lexemes_of_complete receipt with
          same | ⟨_, front, lt, slash, name, held, same⟩
        · rw [same] at insideMember
          rcases List.mem_append.mp insideMember with earlier | last
          · exact .inl (List.mem_append_right _ (List.mem_map_of_mem earlier))
          · exact .inr (List.mem_singleton.mp last ▸ given)
        · rw [same] at insideMember
          rcases List.mem_append.mp insideMember with earlier | closing
          · refine .inl (List.mem_append_right _ (List.mem_map_of_mem ?_))
            rw [held]
            exact List.mem_append_left _ earlier
          · rw [List.mem_singleton.mp closing]
            exact .inr (Token.continued_of_none rfl _)
  | @comment element after outer lt comment interpolations elements receipt closed =>
      obtain ⟨⟨bang, opener⟩, pushed⟩ := Element.lexemes_of_comment receipt
      refine harvests.restock rfl fun token member => ?_
      have around : lexer.stock =
          lexer.ready ++ (Element.dissolve outer ++ after.lexemes).map Lexeme.token ++
            [lt.token, bang.token] := by
        simp [Lexer.stock, elements, opener]
      have replaced :
          { lexer with cursor := comment.stop, elements := after.push comment :: outer }.stock =
            lexer.ready ++ (Element.dissolve outer ++ after.lexemes).map Lexeme.token ++
              [comment.token] := by
        simp [Lexer.stock, pushed]
      rw [replaced] at member
      rw [around]
      rcases List.mem_append.mp member with before | last
      · exact .inl (List.mem_append_left _ before)
      · rw [List.mem_singleton.mp last]
        refine .inr (Token.continued_of_none ?_ _)
        change comment.kind.commentBehind? = none
        rw [(markupComment_ok closed).1]
        rfl
  | unclosedComment => trivial

theorem finish (harvests : Harvests text tokens lexer) :
    (Step.pulled lexer.finish).Keeps (Harvests text) (fun _ => True) tokens := by
  unfold Lexer.finish
  split
  · trivial
  · split
    · exact harvests
    · rename_i lexeme more dissolved
      have stock : lexer.stock = lexer.ready ++ lexeme.token :: more.map Lexeme.token := by
        rw [Lexer.stock, dissolved]
        rfl
      have emptied : Harvests text tokens
          { lexer with elements := [], ready := more.map Lexeme.token } := by
        refine harvests.restock rfl fun token member => .inl ?_
        rw [stock]
        simp only [Lexer.stock, Element.dissolve_nil, List.map_nil, List.append_nil] at member
        exact List.mem_append_right _ (List.mem_cons_of_mem _ member)
      apply emptied.handing
      apply harvests.continued
      simp [stock]

theorem turn {step : Step} (harvests : Harvests text tokens lexer)
    (placed : Placed text tokens lexer) (turn : lexer.Turn step) :
    step.Keeps (Harvests text) (fun _ => True) tokens := by
  cases turn with
  | @ready token more ready =>
      have stock : lexer.stock = token :: { lexer with ready := more }.stock := by
        simp [Lexer.stock, ready]
      have fewer : Harvests text tokens { lexer with ready := more } :=
        harvests.restock rfl fun later held => .inl (stock ▸ List.mem_cons_of_mem _ held)
      exact fewer.handing (harvests.continued token (by simp [stock]))
  | @closed literal lexeme step ready opened reading delivery =>
      have moved : Harvests text tokens { lexer with cursor := lexeme.stop, literal := none } :=
        harvests.restock rfl fun token held => .inl held
      refine moved.delivery (Token.continued_of_none ?_ _) delivery
      change lexeme.kind.commentBehind? = none
      rw [(StringLiteral.read_closed_places reading).1, StringLiteral.kind]
      split <;> rfl
  | interrupted => exact harvests.restock rfl fun token held => .inl held
  | unclosed => trivial
  | finished => exact harvests.finish
  | failed => trivial
  | layout ready literal remaining success => exact harvests.passing placed.cursor success
  | lexeme ready literal remaining success found delivery =>
      exact (harvests.passing placed.cursor success).delivery
        (scan_continues success found lexer.comments) delivery
  | literal ready literal remaining success =>
      exact (harvests.passing placed.cursor success).restock rfl fun token held => .inl held
  | @element scanned name ready literal remaining success found =>
      have stock : { lexer.passing scanned with
          elements := .opened name :: lexer.elements }.stock = lexer.stock ++ [name.token] := by
        simp [Lexer.stock, Lexer.passing]
      refine (harvests.passing placed.cursor success).restock rfl fun token member => ?_
      rw [stock] at member
      rcases List.mem_append.mp member with before | last
      · exact .inl before
      · rw [List.mem_singleton.mp last]
        refine .inr (Token.continued_of_none ?_ _)
        change name.kind.commentBehind? = none
        rw [(scan_success success).name_kind found]
        rfl

end Harvests

theorem Run.harvests {text : Text} {tokens : List Token} {lexer : Lexer}
    (run : Run text tokens lexer) : Harvests text tokens lexer :=
  run.invariant (Harvests.ofText text) fun _ lexer run harvests =>
    harvests.turn run.placed lexer.step_turn

end Lexer

theorem IsLineComment.noFeed {front behind : Text} {comment : Comment} (line : comment.kind = .line)
    (looks : IsLineComment front comment.span.text behind) : '\n' ∉ comment.text := by
  intro member
  unfold Comment.text at member
  rw [line] at member
  dsimp only at member
  split at member
  · rename_i ended
    obtain ⟨body, whole⟩ := List.getLast?_eq_some_iff.mp ended
    rw [whole, List.dropLast_concat] at member
    obtain ⟨earlier, later, rfl⟩ := List.append_of_mem member
    have nothing := looks.oneLine earlier (later ++ ['\n']) (by simp [whole])
    exact absurd nothing (List.append_ne_nil_of_right_ne_nil _ (List.cons_ne_nil _ _))
  · rename_i unended
    obtain ⟨earlier, later, whole⟩ := List.append_of_mem member
    have nothing := looks.oneLine earlier later whole
    rw [whole, nothing] at unended
    exact unended (by simp)

/-- Exactly one of the comments starts at an offset, and it has the given form. -/
def OneStarts (comments : List Comment) (form : CommentKind) (offset : Nat) : Prop :=
  ∃ comment, comment.kind = form ∧
    comments.filter (fun other => other.span.start = offset) = [comment]

theorem filter_start_eq {comments : List Comment} {comment : Comment}
    (ordered : comments.Pairwise fun earlier later => earlier.span.start < later.span.start)
    (member : comment ∈ comments) :
    comments.filter (fun other => other.span.start = comment.span.start) = [comment] := by
  induction ordered with
  | nil => cases member
  | @cons first rest before _ ih =>
      rcases List.mem_cons.mp member with rfl | later
      · have nothing : rest.filter (fun other => other.span.start = comment.span.start) = [] := by
          rw [List.filter_eq_nil_iff]
          intro other otherMember
          have apart := before other otherMember
          simp only [decide_eq_true_eq]
          omega
        rw [List.filter_cons_of_pos (by simp), nothing]
      · have apart := before comment later
        rw [List.filter_cons_of_neg (by simp only [decide_eq_true_eq]; omega)]
        exact ih later

/-- The comments of a text that can be lexed are line comments and block comments of the
text, and every marker is followed by exactly one comment, of the form that the marker
asks for.  The text of a line comment holds no line feed. -/
theorem comments_harvested {text : Text} {result : Tokenized}
    (success : tokenize text = .ok result) :
    (∀ comment, comment ∈ result.comments → comment.HarvestedFrom text) ∧
    (∀ token, token ∈ result.tokens → token.kind = .unsafeExpr →
      OneStarts result.comments .line token.span.stop) ∧
    (∀ token, token ∈ result.tokens → token.kind = .fixmeExpr →
      OneStarts result.comments .block token.span.stop) ∧
    (∀ comment, comment ∈ result.comments → comment.kind = .line → '\n' ∉ comment.text) := by
  obtain ⟨before, last, run, answered, comments⟩ := tokenize_ok success
  obtain ⟨rfl, _⟩ := Lexer.endOfText_step answered
  have harvests := run.harvests
  have looks : ∀ comment, comment ∈ result.comments → comment.HarvestedFrom text := by
    intro comment member
    rw [comments, Array.mem_toList_iff] at member
    exact harvests.comments comment member
  have ordered := (accounted_of_tokenize success).inOrder.imp fun order => order.1
  have follows {token : Token} {form : CommentKind} (member : token ∈ result.tokens)
      (opens : token.kind.commentBehind? = some form) :
      OneStarts result.comments form token.span.stop := by
    obtain ⟨comment, found, kind, start⟩ :=
      harvests.continued token (List.mem_append_left _ member) form opens
    rw [← Array.mem_toList_iff, ← comments] at found
    refine ⟨comment, kind, ?_⟩
    rw [← start]
    exact filter_start_eq ordered found
  refine ⟨looks, ?_, ?_, ?_⟩
  · intro token member marker
    exact follows member (by rw [marker]; rfl)
  · intro token member marker
    exact follows member (by rw [marker]; rfl)
  · intro comment member line
    obtain ⟨front, behind, _, _, form⟩ := looks comment member
    rw [line] at form
    exact form.noFeed line

/-- A marker inside an element, another one in an interpolation, which is not handed out,
and a third one at the end of the text, where its comment has no characters. -/
theorem markers_in_context_harvested :
    let text :=
      "/*/ */<a>/*HH_FIXME*/</a>#c\r\n\"\x7b$x//UNSAFE_EXPR\n\x7d\"// UNSAFE_EXPR".toList
    ∃ result, tokenize text = .ok result ∧
      result.comments =
        [{ kind := .block, span := ⟨0, "/*/ */".toList⟩ },
          { kind := .block, span := ⟨19, "*/".toList⟩ },
          { kind := .line, span := ⟨25, "#c\r\n".toList⟩ },
          { kind := .line, span := ⟨46, "\n".toList⟩ },
          { kind := .line, span := ⟨63, []⟩ }] ∧
      (∀ comment, comment ∈ result.comments → comment.HarvestedFrom text) ∧
      OneStarts result.comments .block 19 ∧ OneStarts result.comments .line 63 := by
  intro text
  have lexed : (tokenize text).toOption.map (fun result =>
      (result.comments, result.tokens.map fun token => (token.kind, token.span.stop))) =
      some
        ([{ kind := .block, span := ⟨0, "/*/ */".toList⟩ },
          { kind := .block, span := ⟨19, "*/".toList⟩ },
          { kind := .line, span := ⟨25, "#c\r\n".toList⟩ },
          { kind := .line, span := ⟨46, "\n".toList⟩ },
          { kind := .line, span := ⟨63, []⟩ }],
        [(.xhpName, 8), (.gt, 9), (.fixmeExpr, 19), (.xhpClosing, 25), (.doubleQuotedString, 49),
          (.unsafeExpr, 63)]) := by
    decide +kernel
  cases outcome : tokenize text with
  | error error =>
      rw [outcome] at lexed
      cases lexed
  | ok result =>
      rw [outcome] at lexed
      obtain ⟨comments, tokens⟩ := Prod.mk.inj (Option.some.inj lexed)
      obtain ⟨looks, unsafeMarkers, fixmeMarkers, _⟩ := comments_harvested outcome
      have handed (kind : TokenKind) (stop : Nat)
          (member : (kind, stop) ∈ [(TokenKind.xhpName, 8), (.gt, 9), (.fixmeExpr, 19),
            (.xhpClosing, 25), (.doubleQuotedString, 49), (.unsafeExpr, 63)]) :
          ∃ token, token ∈ result.tokens ∧ token.kind = kind ∧ token.span.stop = stop := by
        rw [← tokens] at member
        obtain ⟨token, tokenMember, same⟩ := List.mem_map.mp member
        exact ⟨token, tokenMember, (Prod.mk.inj same).1, (Prod.mk.inj same).2⟩
      obtain ⟨fixme, fixmeMember, fixmeKind, fixmeStop⟩ := handed .fixmeExpr 19 (by decide)
      obtain ⟨last, lastMember, lastKind, lastStop⟩ := handed .unsafeExpr 63 (by decide)
      refine ⟨result, rfl, comments, looks, ?_, ?_⟩
      · rw [← fixmeStop]
        exact fixmeMarkers fixme fixmeMember fixmeKind
      · rw [← lastStop]
        exact unsafeMarkers last lastMember lastKind

end HackLexer
