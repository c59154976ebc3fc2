import HackLexer.Proofs.Cuts
import HackLexer.Proofs.Grammar.Matchers
import HackLexer.Proofs.SearchLookahead

/-!
# What a scan finds, by the grammar

The lexemes that a scan gives belong to the languages of their kinds, and a literal
that it opens starts with the opening of its form.  When the body of a literal is
closed, what closes it has been read.
-/

namespace HackLexer

/-- The characters and the value of a token are what its kind promises. -/
structure Token.Justified (token : Token) : Prop where
  spelled : token.span.text ∈ token.kind.language
  valued : token.literal.isSome = token.kind.hasValue

def Text.EndsWith (text closer : Text) (count : Nat) : Prop :=
  ∃ inside, text.take count = inside ++ closer

theorem Text.EndsWith.cons {closer rest : Text} {count : Nat} (first : Char)
    (ends : rest.EndsWith closer count) : EndsWith (first :: rest) closer (1 + count) := by
  obtain ⟨inside, taken⟩ := ends
  refine ⟨first :: inside, ?_⟩
  rw [Nat.add_comm, List.take_succ_cons, taken, List.cons_append]

theorem Text.EndsWith.cons_cons {closer rest : Text} {count : Nat} (first second : Char)
    (ends : rest.EndsWith closer count) :
    EndsWith (first :: second :: rest) closer (2 + count) := by
  have twice := (ends.cons second).cons first
  rwa [← Nat.add_assoc] at twice

theorem SingleQuoted.body_endsWith {text value : Text} {count : Nat}
    (read : body text = some (value, count)) : text.EndsWith "'".toList count := by
  induction text using body.induct generalizing value count with
  | case1 => cases read
  | case2 behind =>
      cases read
      exact ⟨[], rfl⟩
  | case3 rest ih =>
      obtain ⟨more, inner, same⟩ := Option.map_eq_some_iff.mp read
      cases same
      exact (ih inner).cons_cons '\\' '\''
  | case4 rest ih =>
      obtain ⟨more, inner, same⟩ := Option.map_eq_some_iff.mp read
      cases same
      exact (ih inner).cons_cons '\\' '\\'
  | case5 first rest notQuote notQuoteBehind notBackslashBehind ih =>
      rw [body] at read
      · obtain ⟨more, inner, same⟩ := Option.map_eq_some_iff.mp read
        cases same
        exact (ih inner).cons first
      · exact notQuote
      · exact notQuoteBehind
      · exact notBackslashBehind

theorem DoubleQuoted.body_endsWith {text : Text} (closed : (body text).ending = .closed) :
    text.EndsWith "\"".toList (body text).length := by
  induction text using body.induct with
  | case1 => cases closed
  | case2 behind => exact ⟨[], rfl⟩
  | case3 behind => cases closed
  | case4 code rest ih => exact (ih closed).cons_cons '\\' code
  | case5 => cases closed
  | case6 first rest notQuote notBrace noPair notLast ih =>
      have same : body (first :: rest) = (body rest).prepend [first] 1 := by
        rw [body]
        · exact notQuote
        · exact notBrace
        · exact noPair
        · exact notLast
      rw [same] at closed ⊢
      exact (ih closed).cons first

theorem Label.take_of_closes {label : Label} {text : Text} (closes : label.closes text) :
    text.take label.length = label.text := by
  simp only [Label.closes, Bool.and_eq_true] at closes
  exact (List.prefix_iff_eq_take.mp (List.isPrefixOf_iff_prefix.mp closes.1)).symm

namespace DocString

theorem heredocBody_endsWith {label : Label} {atLineStart : Bool} {text : Text}
    (closed : (heredocBody label atLineStart text).ending = .closed) :
    text.EndsWith label.text (heredocBody label atLineStart text).length := by
  fun_induction heredocBody label atLineStart text with
  | case1 atLineStart text closing =>
      simp only [Bool.and_eq_true] at closing
      exact ⟨[], Label.take_of_closes closing.2⟩
  | case2 => cases closed
  | case3 => cases closed
  | case4 atLineStart code rest _ ih => exact (ih closed).cons_cons '\\' code
  | case5 => cases closed
  | case6 atLineStart first rest _ _ _ _ ih => exact (ih closed).cons first

theorem take_nowdocBody {label : Label} {atLineStart : Bool} {text value : Text}
    (read : nowdocBody label atLineStart text = some value) :
    text.take (value.length + label.length) = value ++ label.text := by
  fun_induction nowdocBody label atLineStart text generalizing value with
  | case1 atLineStart text closing =>
      cases read
      simp only [Bool.and_eq_true] at closing
      rw [List.length_nil, Nat.zero_add, List.nil_append]
      exact Label.take_of_closes closing.2
  | case2 => cases read
  | case3 atLineStart first rest _ ih =>
      obtain ⟨more, inner, rfl⟩ := Option.map_eq_some_iff.mp read
      rw [List.length_cons, Nat.add_right_comm, List.take_succ_cons, ih inner, List.cons_append]

theorem lineBreak?_mem {text : Text} {count : Nat} (found : lineBreak? text = some count) :
    text.take count ∈ Grammar.lineBreak := by
  unfold lineBreak? at found
  split at found
  · cases found
    exact .inl rfl
  · cases found
    exact .inr rfl
  · cases found

theorem label_mem {text : Text} {label : Label} (found : Label.ofText? text = some label) :
    label.text ∈ Grammar.label ∧ text.take label.length = label.text := by
  unfold Label.ofText? at found
  split at found
  · cases found
  · rename_i first rest
    simp only [Option.ite_none_right_eq_some, Bool.and_eq_true, Option.some.injEq,
      Bool.not_eq_true', List.isEmpty_eq_false_iff] at found
    obtain ⟨⟨upper, nonempty⟩, rfl⟩ := found
    have parts : rest.takeWhile Label.isPart ∈ Grammar.oneOrMore (Grammar.oneOf Label.isPart) := by
      apply Grammar.mem_oneOrMore_oneOf.mpr
      refine ⟨nonempty, ?_⟩
      intro character member
      exact List.all_eq_true.mp List.all_takeWhile character member
    refine ⟨Grammar.cons_mem_oneOf_mul upper parts, ?_⟩
    have taken := Text.take_countWhile Label.isPart rest
    simp only [Label.length, Label.text, List.length_cons, List.take_succ_cons]
    rw [← Text.countWhile, taken]

theorem headed?_parts {ending : Text → Option Nat} {text : Text} {label : Label} {count : Nat}
    (found : headed? ending text = some (label, count)) :
    label.text ∈ Grammar.label ∧ text.take label.length = label.text ∧
      ending (text.drop label.length) = some count := by
  unfold headed? at found
  split at found
  · cases found
  · rename_i given labelled
    obtain ⟨length, behind, same⟩ := Option.map_eq_some_iff.mp found
    cases same
    exact ⟨(label_mem labelled).1, (label_mem labelled).2, behind⟩

theorem header?_mem {behind : Text} {header : Header} (found : header? behind = some header) :
    header.label.text ∈ Grammar.label ∧
      ('<' :: '<' :: '<' :: behind).take header.length =
        header.form.opening header.label.text ∧
      (('<' :: '<' :: '<' :: behind).drop header.length).take header.lineBreak ∈
        Grammar.lineBreak := by
  by_cases quoted : behind.head? = some '\''
  · obtain ⟨inner, rfl⟩ := List.head?_eq_some_iff.mp quoted
    rw [header?_quoted] at found
    obtain ⟨⟨label, count⟩, here, rfl⟩ := Option.map_eq_some_iff.mp found
    obtain ⟨member, taken, ended⟩ := headed?_parts here
    unfold quotedBreak? at ended
    split at ended
    · rename_i rest dropped
      have whole : inner = label.text ++ '\'' :: rest := by
        rw [← taken, ← dropped, List.take_append_drop]
      have split : '<' :: '<' :: '<' :: '\'' :: inner =
          DocString.nowdoc.opening label.text ++ rest := by
        rw [whole]
        simp [opening]
      have size : Header.length ⟨.nowdoc, label, count⟩ =
          (DocString.nowdoc.opening label.text).length := by
        simp [Header.length, opening, Label.length]
        omega
      refine ⟨member, ?_, ?_⟩
      · rw [split, size, List.take_left]
      · rw [split, size, List.drop_left]
        exact lineBreak?_mem ended
    · cases ended
  · rw [header?_unquoted quoted] at found
    obtain ⟨⟨label, count⟩, here, rfl⟩ := Option.map_eq_some_iff.mp found
    obtain ⟨member, taken, ended⟩ := headed?_parts here
    have split : '<' :: '<' :: '<' :: behind =
        DocString.heredoc.opening label.text ++ behind.drop label.length := by
      rw [opening, ← taken, List.append_assoc, List.take_append_drop]
      rfl
    have size : Header.length ⟨.heredoc, label, count⟩ =
        (DocString.heredoc.opening label.text).length := by
      simp [Header.length, opening, Label.length]
      omega
    refine ⟨member, ?_, ?_⟩
    · rw [split, size, List.take_left]
    · rw [split, size, List.drop_left]
      exact lineBreak?_mem ended

end DocString

/-- What a literal of a form opens with, the line break of a header included. -/
def LiteralForm.openers : LiteralForm → Language Char
  | .doubleQuoted => Grammar.spelling "\""
  | .heredoc label _ =>
      {text | label.text ∈ Grammar.label ∧ ∃ lineBreak, lineBreak ∈ Grammar.lineBreak ∧
        text = DocString.heredoc.opening label.text ++ lineBreak}

/-- What closes a literal of a form. -/
def LiteralForm.closer : LiteralForm → Text
  | .doubleQuoted => "\"".toList
  | .heredoc label _ => label.text

namespace StringLiteral

/-- The opening of a literal stands where the literal starts, and it ends before a
cursor. -/
def Opened (limit : Cursor) (literal : StringLiteral) : Prop :=
  ∃ count, literal.start.rest.take count ∈ literal.form.openers ∧
    (literal.start.advance count).Reaches limit

theorem Opened.mono {limit further : Cursor} {literal : StringLiteral}
    (opened : literal.Opened limit) (later : limit.Reaches further) :
    literal.Opened further := by
  obtain ⟨count, opening, before⟩ := opened
  exact ⟨count, opening, before.trans later⟩

theorem openers_interrupted (literal : StringLiteral) :
    literal.interrupted.openers = literal.form.openers := by
  unfold interrupted
  split
  · rename_i form
    rw [form]
  · rename_i form
    rw [form]
    rfl

theorem body_endsWith {literal : StringLiteral} {text : Text}
    (closed : (literal.body text).ending = .closed) :
    text.EndsWith literal.form.closer (literal.body text).length := by
  unfold body at closed ⊢
  split at closed
  · rename_i form
    simp only [form]
    exact DoubleQuoted.body_endsWith closed
  · rename_i form
    simp only [form]
    exact DocString.heredocBody_endsWith closed

theorem mem_language {literal : StringLiteral} {opening : Text} (inside : Text)
    (opens : opening ∈ literal.form.openers) :
    opening ++ inside ++ literal.form.closer ∈ literal.kind.language := by
  unfold kind
  split
  · rename_i form
    rw [form] at opens ⊢
    rw [Grammar.eq_of_mem_spelling opens]
    exact Grammar.mem_between "\"" "\"" inside
  · rename_i label atLineStart form
    rw [form] at opens ⊢
    obtain ⟨labelled, lineBreak, breaks, rfl⟩ := opens
    exact ⟨label.text, labelled, lineBreak, breaks, inside, rfl⟩

theorem hasValue_kind (literal : StringLiteral) : literal.kind.hasValue = true := by
  unfold kind
  split
  · rfl
  · rfl

theorem read_closed_justified {literal : StringLiteral} {cursor : Cursor} {lexeme : Lexeme}
    (opened : literal.Opened cursor) (reading : literal.read cursor = .closed lexeme) :
    lexeme.token.Justified := by
  simp only [read] at reading
  split at reading
  · rename_i ending
    cases reading
    obtain ⟨count, opening, before⟩ := opened
    obtain ⟨inside, taken⟩ := body_endsWith ending
    have start : literal.start.Reaches cursor :=
      (Cursor.Reaches.advance literal.start count).trans before
    refine ⟨?_, (hasValue_kind literal).symm⟩
    change (literal.start.spanTo (cursor.advance _)).text ∈ literal.kind.language
    obtain ⟨more, rfl⟩ := before
    rw [start.text_spanTo_advance, taken, Cursor.advance_advance, Cursor.spanTo_advance]
    simp only [List.take_add]
    rw [← List.append_assoc, List.append_assoc (literal.start.rest.take count)]
    exact mem_language _ opening
  · cases reading
  · cases reading

end StringLiteral

/-- The kinds of tokens that elements make of several lexemes. -/
def TokenKind.isJoined : TokenKind → Bool
  | .xhpClosing | .xhpComment => true
  | _ => false

theorem TokenKind.isJoined_of_plain {kind : TokenKind} (plain : kind.hasValue = false) :
    kind.isJoined = false := by
  unfold isJoined
  split
  · cases plain
  · cases plain
  · rfl

/-- What a scan finds in front of a cursor is justified by the characters there. -/
def Found.Justified (after : Cursor) : Found → Prop
  | .layout => True
  | .lexeme given => given.token.Justified ∧ given.kind.isJoined = false
  | .literal opened => opened.Opened after
  | .element name => name.token.Justified

/-- What a recogniser finds is justified. -/
def Sound (recognised : Recognised) : Prop :=
  ∀ scanned, recognised = some (.ok scanned) → scanned.found.Justified scanned.after

theorem Sound.orElse {first second : Recognised} (left : Sound first) (right : Sound second) :
    Sound (first <|> second) := by
  cases first with
  | none => simpa using right
  | some result => simpa using left

theorem Cursor.lexeme_justified {cursor : Cursor} {kind : TokenKind} {count : Nat}
    (member : cursor.rest.take count ∈ kind.language) (plain : kind.hasValue = false) :
    (cursor.lexeme kind count).token.Justified where
  spelled := by
    simpa [lexeme, Lexeme.token, Lexeme.span] using member
  valued := plain.symm

theorem layoutAt_sound (cursor : Cursor) : Sound (layoutAt cursor) := by
  intro scanned success
  unfold layoutAt at success
  split at success
  · cases success
    trivial
  · split at success
    · cases success
    · cases success
      trivial

theorem markerAt_sound (cursor : Cursor) : Sound (markerAt cursor) := by
  intro scanned success
  unfold markerAt at success
  split at success
  · cases success
  · rename_i kind count found
    obtain ⟨member, plain⟩ := marker?_mem found
    have justified := Cursor.lexeme_justified member plain
    simp only at success
    split at success
    · unfold blockComment at success
      split at success
      · cases success
        exact ⟨justified, rfl⟩
      · cases success
    · cases success
      exact ⟨justified, TokenKind.isJoined_of_plain plain⟩

theorem commentAt_sound (cursor : Cursor) : Sound (commentAt cursor) := by
  intro scanned success
  simp only [commentAt] at success
  split at success
  · unfold blockComment at success
    split at success
    · cases success
      trivial
    · cases success
  · cases success
    trivial
  · cases success
    trivial
  · cases success

theorem quotedAt_sound (cursor : Cursor) : Sound (quotedAt cursor) := by
  intro scanned success
  unfold quotedAt at success
  split at success
  · rename_i behind rest
    cases success
    refine ⟨1, ?_, .refl _⟩
    rw [rest]
    rfl
  · rename_i behind rest
    split at success
    · cases success
    · rename_i value count read
      cases success
      obtain ⟨inside, taken⟩ := SingleQuoted.body_endsWith read
      refine ⟨⟨?_, rfl⟩, rfl⟩
      change (cursor.spanTo (cursor.advance (1 + count))).text ∈ Grammar.between "'" "'"
      rw [Cursor.spanTo_advance, rest, Nat.add_comm, List.take_succ_cons, taken]
      exact Grammar.mem_between "'" "'" inside
  · cases success

theorem docStringAt_sound (cursor : Cursor) : Sound (docStringAt cursor) := by
  intro scanned success
  unfold docStringAt at success
  split at success
  · rename_i behind rest
    split at success
    · cases success
    · rename_i header opened
      obtain ⟨labelled, opening, breaks⟩ := DocString.header?_mem opened
      rw [← rest] at opening breaks
      simp only at success
      split at success
      · rename_i form
        cases success
        rw [form] at opening
        refine ⟨header.length + header.lineBreak, ⟨labelled, _, breaks, ?_⟩, .refl _⟩
        rw [List.take_add, opening]
      · rename_i form
        split at success
        · cases success
        · rename_i value read
          cases success
          have taken := DocString.take_nowdocBody read
          rw [form] at opening
          refine ⟨⟨⟨_, labelled, _, breaks, value, ?_⟩, rfl⟩, rfl⟩
          change (cursor.spanTo _).text = _
          rw [(Cursor.Reaches.advance cursor _).text_spanTo_advance, Cursor.spanTo_advance, taken,
            List.take_add, opening, ← List.append_assoc]
  · cases success

theorem tokenAt_sound (cursor : Cursor) {matched : Option (TokenKind × Nat)}
    (listed : ∀ {kind count}, matched = some (kind, count) →
      cursor.rest.take count ∈ kind.language ∧ kind.hasValue = false) :
    Sound (tokenAt cursor matched) := by
  intro scanned success
  obtain ⟨⟨kind, count⟩, found, same⟩ := Option.map_eq_some_iff.mp success
  cases same
  obtain ⟨member, plain⟩ := listed found
  exact ⟨Cursor.lexeme_justified member plain, TokenKind.isJoined_of_plain plain⟩

theorem elementAt_sound (markup : Bool) (cursor : Cursor) :
    Sound (elementAt markup cursor) := by
  intro scanned success
  unfold elementAt at success
  split at success
  · obtain ⟨count, found, same⟩ := Option.map_eq_some_iff.mp success
    cases same
    exact Cursor.lexeme_justified (markupName?_mem found) rfl
  · cases success

theorem recognise_sound (markup : Bool) (cursor : Cursor) :
    Sound (recognise markup cursor) :=
  (layoutAt_sound cursor).orElse <| (markerAt_sound cursor).orElse <|
    (commentAt_sound cursor).orElse <| (quotedAt_sound cursor).orElse <|
    (docStringAt_sound cursor).orElse <| (tokenAt_sound cursor number?_mem).orElse <|
    (tokenAt_sound cursor word?_mem).orElse <| (tokenAt_sound cursor dollar?_mem).orElse <|
    (elementAt_sound markup cursor).orElse (tokenAt_sound cursor punctuation?_mem)

theorem scan_justified {markup : Bool} {cursor : Cursor} {scanned : Scanned}
    (success : scan markup cursor = .ok scanned) :
    scanned.found.Justified scanned.after := by
  unfold scan at success
  cases recognised : recognise markup cursor with
  | none =>
      rw [recognised] at success
      cases success
  | some result =>
      rw [recognised] at success
      change result = .ok scanned at success
      subst success
      exact recognise_sound markup cursor scanned recognised

end HackLexer
