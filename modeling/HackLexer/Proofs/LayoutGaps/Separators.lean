import HackLexer.Proofs.Grammar.Closures
import HackLexer.Proofs.LiteralsInContext
import Mathlib.Data.List.TakeWhile

/-!
# Layout behind a text

No token that is spelled out contains layout, so layout behind a text changes none
of the tokens in it.  What is recognised at a place of the text is recognised there
whatever the layout is, with two exceptions: blanks at the end of the text go on in
the layout behind it, and a line comment without its line feed takes the layout in.

`scan_kept` says this of scans.
-/

namespace HackLexer

open scoped Computability

/-- A continuation that begins with layout. -/
def Text.Separates (tail : Text) : Prop :=
  ∃ first behind, tail = first :: behind ∧ isLayout first

def layoutCharacters : List Char :=
  [' ', '\t', '\r', '\x0c', '\n']

theorem mem_layoutCharacters {character : Char} (layout : isLayout character) :
    character ∈ layoutCharacters := by
  simp only [isLayout, isBlank, Bool.or_eq_true, beq_iff_eq] at layout
  simp only [layoutCharacters, List.mem_cons, List.not_mem_nil, or_false]
  tauto

theorem Text.Separates.stops {tail : Text} (separates : tail.Separates) : tail.Stops := by
  obtain ⟨first, behind, rfl, layout⟩ := separates
  have unnamed : layoutCharacters.all (fun character => !isAlphanumeric character) := by decide
  have here := List.all_eq_true.mp unnamed first (mem_layoutCharacters layout)
  simpa [Text.Stops] using here

namespace Grammar

/-- The texts without layout. -/
def solid : Language Char :=
  (oneOf fun character => !isLayout character)∗

theorem closed_solid : Closed solid :=
  .star _

theorem oneOf_le_solid {test : Char → Bool}
    (noLayout : layoutCharacters.all (fun character => !test character)) :
    oneOf test ≤ solid := by
  refine le_trans ?_ le_kstar
  rintro _ ⟨character, passes, rfl⟩
  refine ⟨character, ?_, rfl⟩
  cases layout : isLayout character with
  | false => simp [layout]
  | true =>
      have fails := List.all_eq_true.mp noLayout character (mem_layoutCharacters layout)
      rw [passes] at fails
      cases fails

theorem spelling_le_solid {text : String}
    (noLayout : text.toList.all (fun character => !isLayout character)) :
    spelling text ≤ solid := by
  rintro shown rfl
  exact mem_star_oneOf.mpr (List.all_eq_true.mp noLayout)

theorem digit_le_solid : digit ≤ solid :=
  oneOf_le_solid (by decide)

theorem alphanumeric_le_solid : oneOf isAlphanumeric ≤ solid :=
  oneOf_le_solid (by decide)

theorem int_le_solid : int ≤ solid :=
  closed_solid.int_le alphanumeric_le_solid

theorem exponent_le_solid : exponent ≤ solid := by
  have sign := add_le (closed_solid.optional_le (@spelling_le_solid "+" (by decide)))
    (@spelling_le_solid "-" (by decide))
  exact closed_solid.mul_le (closed_solid.mul_le (oneOf_le_solid (by decide)) sign)
    (closed_solid.oneOrMore_le digit_le_solid)

theorem float_le_solid : float ≤ solid :=
  closed_solid.float_le digit_le_solid (spelling_le_solid (by decide)) exponent_le_solid

theorem identifier_le_solid : identifier ≤ solid :=
  closed_solid.mul_le (oneOf_le_solid (by decide)) (closed_solid.star_le alphanumeric_le_solid)

theorem atom_le_solid : atom ≤ solid := by
  refine add_le identifier_le_solid (closed_solid.mul_le (closed_solid.mul_le ?_ ?_) ?_)
  · exact oneOf_le_solid (by decide)
  · exact closed_solid.star_le (oneOf_le_solid (by decide))
  · exact alphanumeric_le_solid

theorem word_le_solid : word ≤ solid :=
  closed_solid.word_le (spelling_le_solid (by decide)) atom_le_solid

theorem markupName_le_solid : markupName ≤ solid :=
  closed_solid.markupName_le (spelling_le_solid (by decide)) alphanumeric_le_solid
    (spelling_le_solid (by decide)) (spelling_le_solid (by decide))

end Grammar

/-- Layout behind a text does not change what a local matcher of solid texts finds. -/
theorem IsLocal.append_of_separates {Match : Type} {length : Match → Nat}
    {matcher : Text → Option Match} (isLocal : IsLocal length matcher)
    (solid : ∀ {text : Text} {found : Match}, matcher text = some found →
      text.take (length found) ∈ Grammar.solid)
    {tail : Text} (separates : tail.Separates) (text : Text) :
    matcher (text ++ tail) = matcher text := by
  cases result : matcher (text ++ tail) with
  | none => exact (isLocal.unmatched result).symm
  | some found =>
      rcases Nat.lt_or_ge text.length (length found) with beyond | fits
      · obtain ⟨first, behind, rfl, layout⟩ := separates
        have passes := Grammar.mem_star_oneOf.mp (solid result) first
          (Text.mem_take_of_beyond beyond)
        simp only [layout] at passes
        cases passes
      · exact (isLocal.matched result fits).symm

theorem number?_solid {text : Text} {found : TokenKind × Nat} (result : number? text = some found) :
    text.take found.2 ∈ Grammar.solid :=
  number?_mem_of_le Grammar.int_le_solid Grammar.float_le_solid result

theorem word?_solid {text : Text} {found : TokenKind × Nat} (result : word? text = some found) :
    text.take found.2 ∈ Grammar.solid :=
  word?_mem_of_le Grammar.word_le_solid result

theorem dollar?_solid {text : Text} {found : TokenKind × Nat} (result : dollar? text = some found) :
    text.take found.2 ∈ Grammar.solid := by
  have member := (dollar?_mem result).1
  have sign : Grammar.spelling "$" ≤ Grammar.solid := Grammar.spelling_le_solid (by decide)
  unfold dollar? at result
  split at result
  · split at result
    · cases result
      exact sign member
    · split at result
      · cases result
        exact Grammar.closed_solid.mul_le sign Grammar.identifier_le_solid member
      · cases result
        exact sign member
  · cases result

theorem markupName?_solid {text : Text} {count : Nat} (result : markupName? text = some count) :
    text.take count ∈ Grammar.solid :=
  Grammar.closed_solid.mul_le (Grammar.spelling_le_solid (by decide)) Grammar.markupName_le_solid
    (markupName?_mem result)

theorem punctuations_solid :
    punctuations.all (fun entry => entry.1.all fun character => !isLayout character) = true := by
  decide

theorem punctuation?_solid {text : Text} {found : TokenKind × Nat}
    (result : punctuation? text = some found) : text.take found.2 ∈ Grammar.solid := by
  obtain ⟨⟨spelling, kind⟩, first, same⟩ := Option.map_eq_some_iff.mp result
  cases same
  have matched := List.find?_some first
  have front := List.prefix_iff_eq_take.mp (List.isPrefixOf_iff_prefix.mp matched)
  have noLayout := List.all_eq_true.mp punctuations_solid _ (List.mem_of_find?_eq_some first)
  simp only [← front]
  exact Grammar.mem_star_oneOf.mpr (List.all_eq_true.mp noLayout)

/-- A scan passes over blanks or a line feed. -/
def Scanned.IsLayout (scanned : Scanned) : Prop :=
  scanned.found = .layout ∧ scanned.comment = none

/-- What is recognised in a text is recognised inside of the context, unless it is
layout or ends with the text. -/
def Kept (context : Context) (within : Recognised) : Recognised → Prop
  | none => within = none
  | some (.error _) => True
  | some (.ok scanned) =>
      scanned.IsLayout ∨ scanned.RunsOut ∨ within = some (.ok (scanned.inside context))

variable {context : Context} {cursor : Cursor}

theorem Kept.orElse {alone within aloneElse withinElse : Recognised}
    (first : Kept context within alone) (second : Kept context withinElse aloneElse) :
    Kept context (within <|> withinElse) (alone <|> aloneElse) := by
  match alone with
  | none =>
      change within = none at first
      rw [first]
      exact second
  | some (.error error) => trivial
  | some (.ok scanned) =>
      rcases first with layout | runsOut | same
      · exact .inl layout
      · exact .inr (.inl runsOut)
      · rw [same]
        exact .inr (.inr rfl)

theorem layoutAt_kept (remaining : cursor.rest ≠ []) :
    Kept context (layoutAt (cursor.inside context)) (layoutAt cursor) := by
  obtain ⟨first, behind, rest⟩ := List.exists_cons_of_ne_nil remaining
  have longer : (cursor.inside context).rest = first :: (behind ++ context.tail) := by
    rw [Cursor.rest_inside, rest]
    rfl
  by_cases feed : first = '\n'
  · subst feed
    unfold layoutAt
    rw [rest]
    exact .inl ⟨rfl, rfl⟩
  · rw [layoutAt_of_ne rest feed, layoutAt_of_ne longer feed]
    cases alone : blanks? cursor.rest with
    | some count => exact .inl ⟨rfl, rfl⟩
    | none =>
        have other : isBlank first = false := by
          simpa [blanks?, rest, Text.countWhile_cons] using alone
        have none : blanks? (cursor.inside context).rest = none := by
          simp [blanks?, longer, Text.countWhile_cons, other, -Cursor.rest_inside]
        rw [none]
        rfl

theorem lineComment_kept (start : Cursor) (found : Found) :
    Kept context
      (some (.ok (.beforeComment (found.inside context) (lineComment (start.inside context)))))
      (some (.ok (.beforeComment found (lineComment start)))) := by
  by_cases feed : '\n' ∈ start.rest
  · rw [lineComment_inside_of_feed feed]
    exact .inr (.inr rfl)
  · rw [lineComment_of_noFeed (Text.countWhile_of_noFeed feed)]
    refine .inr (.inl ⟨?_, _, rfl, rfl, getLast?_ne_feed feed⟩)
    exact List.drop_length

theorem blockComment_kept {opening start : Cursor} {skipped : Nat} (found : Found)
    (skips : skipped ≤ start.rest.length) :
    Kept context
      (some ((blockComment (opening.inside context) (start.inside context) skipped).map
        (.beforeComment (found.inside context))))
      (some ((blockComment opening start skipped).map (.beforeComment found))) := by
  cases closed : blockComment opening start skipped with
  | error error => trivial
  | ok block =>
      rw [blockComment_inside skips closed]
      exact .inr (.inr rfl)

theorem isPrefixOf_append_of_notMem {pattern : Text} {first : Char} (absent : first ∉ pattern)
    (text behind : Text) : pattern.isPrefixOf (text ++ first :: behind) = pattern.isPrefixOf text := by
  rcases Nat.lt_or_ge text.length pattern.length with short | fits
  · rw [Text.isPrefixOf_eq_false_of_short short, ← Bool.not_eq_true, List.isPrefixOf_iff_prefix]
    intro starts
    apply absent
    rw [List.prefix_iff_eq_take.mp starts]
    exact Text.mem_take_of_beyond short
  · exact Text.isPrefixOf_append_of_length_le _ fits

/-- A solid pattern does not go on in the layout behind a text. -/
theorem isPrefixOf_append_of_separates {pattern tail : Text} (separates : tail.Separates)
    (solid : pattern.all fun character => !isLayout character) (text : Text) :
    pattern.isPrefixOf (text ++ tail) = pattern.isPrefixOf text := by
  obtain ⟨first, behind, rfl, layout⟩ := separates
  apply isPrefixOf_append_of_notMem
  intro member
  have noLayout := List.all_eq_true.mp solid first member
  rw [layout] at noLayout
  cases noLayout

/-- What follows a text changes whether a marker stands in it only if all of the text
is blank. -/
theorem markerAfter?_append {marker tail : Text} (separates : tail.Separates)
    (solid : marker.all fun character => !isLayout character) (text : Text) :
    markerAfter? marker (text ++ tail) = markerAfter? marker text ∨
      ∀ character, character ∈ text → isBlank character := by
  by_cases blank : Text.countWhile isBlank text = text.length
  · right
    have whole : text.takeWhile isBlank = text :=
      (List.takeWhile_prefix isBlank).eq_of_length blank
    rw [← whole]
    exact List.all_eq_true.mp List.all_takeWhile
  · left
    have counted := Text.countWhile_append isBlank text tail
    rw [if_neg blank] at counted
    have bound := Text.countWhile_le isBlank text
    simp only [markerAfter?, counted, List.drop_append_of_le_length bound,
      isPrefixOf_append_of_separates separates solid]

section Blanks

variable {text : Text} (blank : ∀ character, character ∈ text → isBlank character)

include blank

theorem markerAfter?_of_blank {marker : Text} (nonempty : marker ≠ []) :
    markerAfter? marker text = none := by
  have counted : Text.countWhile isBlank text = text.length := by
    rw [Text.countWhile, List.takeWhile_eq_self_iff.mpr blank]
  simpa [markerAfter?, counted] using nonempty

theorem find?_of_blank : Text.find? "*/".toList text = none := by
  cases found : Text.find? "*/".toList text with
  | none => rfl
  | some count =>
      have starts := List.isPrefixOf_iff_prefix.mp (Text.isPrefixOf_drop_of_find? found)
      have star : '*' ∈ text := List.mem_of_mem_drop (starts.subset (by decide))
      exact absurd (blank '*' star) (by decide)

end Blanks

/-- A line comment in which only blanks follow the opener runs out. -/
theorem runsOut_of_blank {blanks : Text} (rest : cursor.rest = '/' :: '/' :: blanks)
    (blank : ∀ character, character ∈ blanks → isBlank character) (found : Found) :
    (Scanned.beforeComment found (lineComment cursor)).RunsOut := by
  have noFeed : '\n' ∉ cursor.rest := by
    rw [rest]
    intro feed
    have inside : '\n' ∈ blanks := by simpa using feed
    exact absurd (blank '\n' inside) (by decide)
  rw [lineComment_of_noFeed (Text.countWhile_of_noFeed noFeed)]
  exact ⟨List.drop_length, _, rfl, rfl, getLast?_ne_feed noFeed⟩

theorem markerAt_kept (same : marker? (cursor.inside context).rest = marker? cursor.rest) :
    Kept context (markerAt (cursor.inside context)) (markerAt cursor) := by
  rw [markerAt_eq, markerAt_eq, same]
  cases marker : marker? cursor.rest with
  | none => rfl
  | some found =>
      obtain ⟨kind, count⟩ := found
      have fits := (marker?_plain marker).1
      simp only [Option.map_some, markedAt, lexeme_inside fits, Cursor.advance_inside (.inl fits)]
      split
      · exact blockComment_kept (.lexeme (cursor.lexeme kind count)) (Nat.zero_le _)
      · exact lineComment_kept (cursor.advance count) (.lexeme (cursor.lexeme kind count))

/-- Where only layout follows a comment opener, the text alone has neither the marker
nor the end of the comment. -/
theorem kept_of_blank {second : Char} {blanks : Text} {within : Recognised}
    (rest : cursor.rest = '/' :: second :: blanks) (opener : second = '/' ∨ second = '*')
    (blank : ∀ character, character ∈ blanks → isBlank character) :
    Kept context within (markerAt cursor <|> commentAt cursor) := by
  have unmarked : markerAt cursor = none := by
    rw [markerAt_eq, rest]
    rcases opener with rfl | rfl
    · simp [marker?, markerAfter?_of_blank blank]
    · simp [marker?, markerAfter?_of_blank blank]
  rw [unmarked]
  change Kept context within (commentAt cursor)
  rw [commentAt_slash rest]
  rcases opener with rfl | rfl
  · exact .inr (.inl (runsOut_of_blank rest blank .layout))
  · have unclosed : blockComment cursor cursor 2 =
        .error (.unclosed .unterminatedComment (cursor.spanOf 2) cursor) := by
      unfold blockComment
      rw [rest]
      simp only [List.drop_succ_cons, List.drop_zero, find?_of_blank blank]
    rw [if_pos rfl, unclosed]
    trivial

theorem quotedAt_kept (remaining : cursor.rest ≠ []) :
    Kept context (quotedAt (cursor.inside context)) (quotedAt cursor) := by
  obtain ⟨first, behind, rest⟩ := List.exists_cons_of_ne_nil remaining
  have longer : (cursor.inside context).rest = first :: (behind ++ context.tail) := by
    rw [Cursor.rest_inside, rest]
    rfl
  have size : cursor.rest.length = 1 + behind.length := by
    rw [rest, List.length_cons, Nat.add_comm]
  by_cases double : first = '"'
  · subst double
    simp only [quotedAt, rest, longer]
    rw [Cursor.advance_inside (.inl (by omega))]
    exact .inr (.inr rfl)
  · by_cases single : first = '\''
    · subst single
      simp only [quotedAt, rest, longer]
      cases closed : SingleQuoted.body behind with
      | none => trivial
      | some read =>
          obtain ⟨value, count⟩ := read
          have outcome := SingleQuoted.body_append behind context.tail
          rw [closed] at outcome
          have bound := SingleQuoted.body_within closed
          simp only [outcome.resolve_right (by simp)]
          rw [Cursor.advance_inside (.inl (by omega))]
          exact .inr (.inr rfl)
    · rw [ModeStack.Machine.quotedAt_none rest double single,
        ModeStack.Machine.quotedAt_none longer double single]
      rfl

section Separated

variable (separates : context.tail.Separates)

include separates

theorem commentAt_kept (remaining : cursor.rest ≠ []) :
    Kept context (commentAt (cursor.inside context)) (commentAt cursor) := by
  obtain ⟨first, behind, rest⟩ := List.exists_cons_of_ne_nil remaining
  have longer : (cursor.inside context).rest = first :: (behind ++ context.tail) := by
    rw [Cursor.rest_inside, rest]
    rfl
  by_cases hash : first = '#'
  · subst hash
    rw [commentAt_hash rest, commentAt_hash longer]
    exact lineComment_kept cursor .layout
  · by_cases slash : first = '/'
    · subst slash
      cases behind with
      | nil =>
          -- The slash stands alone, for layout follows the text.
          obtain ⟨second, further, tail, layout⟩ := separates
          have alone : commentAt cursor = none := by simp [commentAt, rest]
          rw [List.nil_append, tail] at longer
          have apart : second ≠ '*' ∧ second ≠ '/' := by
            constructor
            · rintro rfl
              cases layout
            · rintro rfl
              cases layout
          rw [alone, commentAt_slash longer, if_neg apart.1, if_neg apart.2]
          rfl
      | cons second behind =>
          rw [commentAt_slash rest, commentAt_slash longer]
          split
          · exact blockComment_kept .layout (by rw [rest]; simp)
          · split
            · exact lineComment_kept cursor .layout
            · rfl
    · rw [commentAt_of_ne rest slash hash, commentAt_of_ne longer slash hash]
      rfl

/-- Markers and comments have to be looked at together, for the text alone may have a
line comment where its continuation has a marker. -/
theorem markedComment_kept (remaining : cursor.rest ≠ []) :
    Kept context (markerAt (cursor.inside context) <|> commentAt (cursor.inside context))
      (markerAt cursor <|> commentAt cursor) := by
  have comments := commentAt_kept separates remaining
  match rest : cursor.rest with
  | [] => exact absurd rest remaining
  | [first] =>
      obtain ⟨second, further, tail, layout⟩ := separates
      refine (markerAt_kept ?_).orElse comments
      rw [Cursor.rest_inside, rest, tail, List.singleton_append, marker?_of_not_opener]
      · simp [marker?]
      · rintro ⟨_, rfl | rfl⟩
        · cases layout
        · cases layout
  | first :: second :: behind =>
      have longer : (cursor.inside context).rest = first :: second :: (behind ++ context.tail) := by
        rw [Cursor.rest_inside, rest]
        rfl
      by_cases opener : first = '/' ∧ (second = '/' ∨ second = '*')
      · obtain ⟨rfl, second⟩ := opener
        rcases second with rfl | rfl
        · rcases markerAfter?_append separates (by decide : "UNSAFE_EXPR".toList.all _) behind with
            same | blank
          · refine (markerAt_kept ?_).orElse comments
            rw [longer, rest, marker?, marker?, same]
          · exact kept_of_blank rest (.inl rfl) blank
        · rcases markerAfter?_append separates (by decide : "HH_FIXME".toList.all _) behind with
            same | blank
          · refine (markerAt_kept ?_).orElse comments
            rw [longer, rest, marker?, marker?, same]
          · exact kept_of_blank rest (.inr rfl) blank
      · refine (markerAt_kept ?_).orElse comments
        rw [longer, rest, marker?_of_not_opener opener, marker?_of_not_opener opener]

theorem nowdoc_kept {header : DocString.Header} (isNowdoc : header.form = .nowdoc)
    (proper : header.label.Proper)
    (bound : header.length + header.lineBreak ≤ cursor.rest.length) :
    Kept context (some (ModeStack.docString (cursor.inside context) (some header)))
      (some (ModeStack.docString cursor (some header))) := by
  have body : (cursor.inside context).advance (header.length + header.lineBreak) =
      (cursor.advance (header.length + header.lineBreak)).inside context :=
    Cursor.advance_inside (.inl bound)
  unfold ModeStack.docString
  simp only [isNowdoc, body, Cursor.rest_inside]
  generalize cursor.advance (header.length + header.lineBreak) = start
  cases closed : DocString.nowdocBody header.label true start.rest with
  | none => trivial
  | some value =>
      have outcome := DocString.nowdocBody_append proper true start.rest context.tail
      rw [closed] at outcome
      have same := outcome.resolve_right fun differs => by cases differs.2 separates.stops
      right
      right
      simp only [same, Cursor.advance_inside (.inl (DocString.nowdocBody_within closed))]
      rfl

theorem docStringAt_kept :
    Kept context (docStringAt (cursor.inside context)) (docStringAt cursor) := by
  by_cases opener : "<<<".toList.isPrefixOf cursor.rest
  · obtain ⟨behind, rest⟩ := exists_of_opener opener
    have longer : (cursor.inside context).rest = '<' :: '<' :: '<' :: (behind ++ context.tail) := by
      rw [Cursor.rest_inside, rest]
      rfl
    have size : cursor.rest.length = 3 + behind.length := by
      rw [rest]
      simp only [List.length_cons]
      omega
    rw [ModeStack.docStringAt_eq rest, ModeStack.docStringAt_eq longer]
    cases headed : DocString.header? behind with
    | none => trivial
    | some header =>
        have outcome := DocString.header?_append behind context.tail
        obtain ⟨proper, bound⟩ := DocString.header?_within headed
        rw [← size] at bound
        rw [headed] at outcome
        rw [outcome.resolve_right (by simp)]
        cases form : header.form with
        | nowdoc => exact nowdoc_kept separates form proper bound
        | heredoc =>
            simp only [ModeStack.docString, form, Cursor.advance_inside (.inl bound)]
            exact .inr (.inr rfl)
  · rw [ModeStack.Machine.docStringAt_none opener]
    apply ModeStack.Machine.docStringAt_none
    rwa [Cursor.rest_inside, isPrefixOf_append_of_separates separates (by decide)]

theorem tokenAt_kept {matcher : Text → Option (TokenKind × Nat)}
    (isLocal : IsLocal Prod.snd matcher)
    (solid : ∀ {text : Text} {found : TokenKind × Nat}, matcher text = some found →
      text.take found.2 ∈ Grammar.solid)
    (plain : ∀ {text : Text} {kind : TokenKind} {count : Nat},
      matcher text = some (kind, count) → text.Plain count) :
    Kept context (tokenAt (cursor.inside context) (matcher (cursor.inside context).rest))
      (tokenAt cursor (matcher cursor.rest)) := by
  rw [Cursor.rest_inside, isLocal.append_of_separates solid separates]
  cases found : matcher cursor.rest with
  | none => rfl
  | some token =>
      obtain ⟨kind, count⟩ := token
      simp only [tokenAt, Option.map_some, lexeme_inside (plain found).1]
      exact .inr (.inr rfl)

theorem elementAt_kept (markup : Bool) :
    Kept context (elementAt markup (cursor.inside context)) (elementAt markup cursor) := by
  cases markup with
  | false => rfl
  | true =>
      have same := markupName?_local.append_of_separates markupName?_solid separates cursor.rest
      simp only [elementAt, if_true, Cursor.rest_inside, same]
      cases found : markupName? cursor.rest with
      | none => rfl
      | some count =>
          simp only [Option.map_some, lexeme_inside (markupName?_plain found).1]
          exact .inr (.inr rfl)

theorem recognise_kept (markup : Bool) (remaining : cursor.rest ≠ []) :
    Kept context (recognise markup (cursor.inside context)) (recognise markup cursor) := by
  have regrouped (cursor : Cursor) : recognise markup cursor =
      (layoutAt cursor <|> (markerAt cursor <|> commentAt cursor) <|> quotedAt cursor <|>
        docStringAt cursor <|> tokenAt cursor (number? cursor.rest) <|>
        tokenAt cursor (word? cursor.rest) <|> tokenAt cursor (dollar? cursor.rest) <|>
        elementAt markup cursor <|> tokenAt cursor (punctuation? cursor.rest)) := by
    unfold recognise
    cases markerAt cursor with
    | none => rfl
    | some result => rfl
  rw [regrouped, regrouped]
  exact (layoutAt_kept remaining).orElse <| (markedComment_kept separates remaining).orElse <|
    (quotedAt_kept remaining).orElse <| (docStringAt_kept separates).orElse <|
    (tokenAt_kept separates number?_local number?_solid number?_plain).orElse <|
    (tokenAt_kept separates word?_local word?_solid word?_plain).orElse <|
    (tokenAt_kept separates dollar?_local dollar?_solid dollar?_plain).orElse <|
    (elementAt_kept separates markup).orElse
    (tokenAt_kept separates punctuation?_local punctuation?_solid punctuation?_plain)

/-- Layout behind a text changes no scan in it, apart from those that pass over layout
and those that end with the text in a line comment. -/
theorem scan_kept {markup : Bool} {scanned : Scanned} (remaining : cursor.rest ≠ [])
    (success : scan markup cursor = .ok scanned) :
    scanned.IsLayout ∨ scanned.RunsOut ∨
      scan markup (cursor.inside context) = .ok (scanned.inside context) := by
  have kept := recognise_kept separates markup remaining
  unfold scan at success ⊢
  cases recognised : recognise markup cursor with
  | none =>
      rw [recognised] at success
      cases success
  | some result =>
      rw [recognised, Option.getD_some] at success
      rw [recognised, success] at kept
      rcases kept with layout | runsOut | same
      · exact .inl layout
      · exact .inr (.inl runsOut)
      · rw [same]
        exact .inr (.inr rfl)

end Separated

end HackLexer
