import HackLexer.Proofs.ModeStack

/-!
# Loops over bodies of strings

Started at a place of the source, each loop of the lexer with a stack of modes
cuts at places only and comes to the result that the recursive definition of the
body gives.  This holds for any number of turns above the number of characters,
or bytes, that are left.
-/

namespace HackLexer

theorem DoubleQuoted.body_cons {first : Char} {behind : Text}
    (notQuote : first = '"' → False) (notBrace : first = '\x7b' → False)
    (notBackslash : first = '\\' → False) :
    DoubleQuoted.body (first :: behind) =
      (DoubleQuoted.body behind).prepend [first] 1 := by
  rw [DoubleQuoted.body.eq_def]
  split <;> simp_all

namespace DocString

variable {label : Label} {atLineStart : Bool}

theorem heredocBody_closing {text : Text}
    (closing : (atLineStart && label.closes text) = true) :
    heredocBody label atLineStart text =
      { value := [], length := label.length, ending := .closed } := by
  rw [heredocBody.eq_def, if_pos closing]

theorem heredocBody_nil (goes : (atLineStart && label.closes []) = false) :
    heredocBody label atLineStart [] =
      { value := [], length := 0, ending := .endOfText } := by
  rw [heredocBody.eq_def]
  simp [goes]

theorem heredocBody_brace {behind : Text}
    (goes : (atLineStart && label.closes ('\x7b' :: behind)) = false) :
    heredocBody label atLineStart ('\x7b' :: behind) =
      { value := [], length := 1, ending := .interpolation } := by
  rw [heredocBody.eq_def]
  simp [goes]

theorem heredocBody_lastBackslash
    (goes : (atLineStart && label.closes ['\\']) = false) :
    heredocBody label atLineStart ['\\'] =
      { value := [], length := 1, ending := .endOfText } := by
  rw [heredocBody.eq_def]
  simp [goes]

theorem heredocBody_backslash {code : Char} {behind : Text}
    (goes : (atLineStart && label.closes ('\\' :: code :: behind)) = false) :
    heredocBody label atLineStart ('\\' :: code :: behind) =
      (heredocBody label false behind).prepend ['\\', code] 2 := by
  rw [heredocBody.eq_def]
  simp [goes]

theorem heredocBody_cons {first : Char} {behind : Text}
    (goes : (atLineStart && label.closes (first :: behind)) = false)
    (notBrace : first = '\x7b' → False) (notBackslash : first = '\\' → False) :
    heredocBody label atLineStart (first :: behind) =
      (heredocBody label (first == '\n') behind).prepend [first] 1 := by
  rw [heredocBody.eq_def]
  split
  · simp_all
  · split <;> simp_all

end DocString

theorem SingleQuoted.body_escape {code : Char} {behind : Text}
    (codes : code = '\'' ∨ code = '\\') :
    SingleQuoted.body ('\\' :: code :: behind) =
      (SingleQuoted.body behind).map fun read => ([code] ++ read.1, 2 + read.2) := by
  rcases codes with rfl | rfl
  · rw [SingleQuoted.body]
    rfl
  · rw [SingleQuoted.body]
    rfl

theorem SingleQuoted.body_cons {first : Char} {rest : Text} (notQuote : first ≠ '\'')
    (noEscape : first = '\\' → rest.head? ≠ some '\'' ∧ rest.head? ≠ some '\\') :
    body (first :: rest) = (body rest).map fun read => (first :: read.1, 1 + read.2) := by
  rw [body]
  · exact notQuote
  · rintro behind rfl rfl
    exact (noEscape rfl).1 rfl
  · rintro behind rfl rfl
    exact (noEscape rfl).2 rfl

namespace DocString

theorem nowdocBody_inLine {label : Label} {line behind : Text} (noFeed : '\n' ∉ line) :
    nowdocBody label false (line ++ '\n' :: behind) =
      (nowdocBody label true behind).map (line ++ '\n' :: ·) := by
  induction line with
  | nil =>
      rw [List.nil_append, nowdocBody]
      rfl
  | cons first line ih =>
      have other : first ≠ '\n' := by
        rintro rfl
        exact noFeed List.mem_cons_self
      have flag : (first == '\n') = false := by simpa using other
      rw [List.cons_append, nowdocBody, Bool.false_and, if_neg Bool.false_ne_true, flag,
        ih (fun member => noFeed (List.mem_cons_of_mem _ member)), Option.map_map]
      rfl

theorem nowdocBody_inLastLine {label : Label} {text : Text} (noFeed : '\n' ∉ text) :
    nowdocBody label false text = none := by
  induction text with
  | nil =>
      rw [nowdocBody]
      rfl
  | cons first rest ih =>
      have other : first ≠ '\n' := by
        rintro rfl
        exact noFeed List.mem_cons_self
      have flag : (first == '\n') = false := by simpa using other
      rw [nowdocBody, Bool.false_and, if_neg Bool.false_ne_true, flag,
        ih (fun member => noFeed (List.mem_cons_of_mem _ member))]
      rfl

/-- Within a line that does not close the doc string, it makes no difference
that the line starts there. -/
theorem nowdocBody_of_not_closes {label : Label} {text : Text}
    (goes : label.closes text = false) :
    nowdocBody label true text = nowdocBody label false text := by
  rw [nowdocBody.eq_def, nowdocBody.eq_def label false, goes]
  rfl

end DocString

theorem DocString.nowdocBody_some {label : Label} {atLineStart : Bool} {text value : Text}
    (read : nowdocBody label atLineStart text = some value) :
    ∃ behind, text = value ++ behind ∧ label.closes behind := by
  induction text generalizing atLineStart value with
  | nil =>
      rw [nowdocBody] at read
      split at read
      · rename_i closing
        cases read
        simp only [Bool.and_eq_true] at closing
        exact ⟨[], rfl, closing.2⟩
      · cases read
  | cons first rest ih =>
      rw [nowdocBody] at read
      split at read
      · rename_i closing
        cases read
        simp only [Bool.and_eq_true] at closing
        exact ⟨first :: rest, rfl, closing.2⟩
      · obtain ⟨more, later, rfl⟩ := Option.map_eq_some_iff.mp read
        obtain ⟨behind, rfl, closes⟩ := ih later
        exact ⟨behind, rfl, closes⟩

theorem DoubleQuoted.length_body {text : Text} (ended : (body text).ending = .endOfText) :
    (body text).length = text.length := by
  fun_induction body text with
  | case1 => rfl
  | case2 behind => cases ended
  | case3 behind => cases ended
  | case4 code rest ih =>
      have more : (body rest).length = rest.length := ih ended
      simp only [Body.prepend, List.length_cons, more]
      omega
  | case5 => rfl
  | case6 first rest _ _ _ _ ih =>
      have more : (body rest).length = rest.length := ih ended
      simp only [Body.prepend, List.length_cons, more]
      omega

theorem DocString.length_heredocBody {label : Label} {atLineStart : Bool} {text : Text}
    (ended : (heredocBody label atLineStart text).ending = .endOfText) :
    (heredocBody label atLineStart text).length = text.length := by
  fun_induction heredocBody label atLineStart text with
  | case1 => cases ended
  | case2 => rfl
  | case3 => cases ended
  | case4 atLineStart code rest _ ih =>
      have more : (heredocBody label false rest).length = rest.length := ih ended
      simp only [Body.prepend, List.length_cons, more]
      omega
  | case5 => rfl
  | case6 atLineStart first rest _ _ _ _ ih =>
      have more : (heredocBody label (first == '\n') rest).length = rest.length := ih ended
      simp only [Body.prepend, List.length_cons, more]
      omega

theorem StringLiteral.length_body {literal : StringLiteral} {text : Text}
    (ended : (literal.body text).ending = .endOfText) :
    (literal.body text).length = text.length := by
  obtain ⟨start, form, value⟩ := literal
  cases form with
  | doubleQuoted => exact DoubleQuoted.length_body ended
  | heredoc label atLineStart => exact DocString.length_heredocBody ended

namespace ModeStack

theorem byteLength_rest_lt_turns {source : Source} {cursor : Cursor}
    (place : cursor.IsPlaceOf source.content) :
    Text.byteLength cursor.rest < turns source := by
  obtain ⟨front, whole, _, _⟩ := place.exists_front
  have total := congrArg Text.byteLength whole
  rw [Text.byteLength_append] at total
  unfold turns
  omega

theorem length_rest_lt_turns {source : Source} {cursor : Cursor}
    (place : cursor.IsPlaceOf source.content) : cursor.rest.length < turns source :=
  Nat.lt_of_le_of_lt (Text.length_le_byteLength cursor.rest)
    (byteLength_rest_lt_turns place)

theorem takeEscape?_eq {source : Source} {cursor : Cursor} {behind : Text}
    (place : cursor.IsPlaceOf source.content) (rest : cursor.rest = '\\' :: behind) :
    takeEscape? source cursor.offset cursor.line =
      some
        (match behind with
        | [] => (none, (cursor.advance 1).offset, (cursor.advance 1).line)
        | code :: _ => (some code, (cursor.advance 2).offset, (cursor.advance 2).line)) := by
  have moved := Cursor.advance_one rest
  have cut := (place.advance 1).tail?_eq
  rw [moved] at cut
  change source.content.tail? (cursor.offset + 1) = some behind at cut
  unfold takeEscape?
  rw [cut]
  cases behind with
  | nil =>
      rw [moved]
      rfl
  | cons code more =>
      have twice : cursor.advance 2 = (cursor.advance 1).advance 1 :=
        (cursor.advance_advance 1 1).symm
      have next : (cursor.advance 1).rest = code :: more := by rw [moved]
      rw [twice, Cursor.advance_one next, moved]
      rfl

/-- What a loop over the body of a literal gives at a place. -/
def bodyRead (cursor : Cursor) (value : Text) (atLineStart : Bool) (body : Body) :
    BodyRead :=
  { value := value ++ body.value
    cursor := (cursor.advance body.length).offset
    line := (cursor.advance body.length).line
    atLineStart
    ending := body.ending }

theorem bodyRead_prepend (cursor : Cursor) (value more : Text) (atLineStart : Bool)
    (count : Nat) (body : Body) :
    bodyRead cursor value atLineStart (body.prepend more count) =
      bodyRead (cursor.advance count) (value ++ more) atLineStart body := by
  simp [bodyRead, Body.prepend, Cursor.advance_advance]

theorem doubleQuotedBody?_eq {source : Source} {cursor : Cursor} {fuel : Nat}
    (place : cursor.IsPlaceOf source.content) (enough : cursor.rest.length < fuel)
    (value : Text) :
    doubleQuotedBody? source fuel value cursor.offset cursor.line =
      some (bodyRead cursor value false (DoubleQuoted.body cursor.rest)) := by
  induction fuel generalizing cursor value with
  | zero => omega
  | succ fuel ih =>
      have again : ∀ count more, 0 < count → cursor.rest ≠ [] →
          doubleQuotedBody? source fuel (value ++ more) (cursor.advance count).offset
            (cursor.advance count).line =
          some (bodyRead (cursor.advance count) (value ++ more) false
            (DoubleQuoted.body (cursor.rest.drop count))) := by
        intro count more positive remaining
        have shorter := Cursor.length_rest_advance_lt remaining positive
        exact ih (place.advance count) (by omega) (value ++ more)
      rw [doubleQuotedBody?, place.tail?_eq]
      simp only [Option.bind_eq_bind, Option.bind_some]
      cases rest : cursor.rest with
      | nil => simp [DoubleQuoted.body, bodyRead]
      | cons first behind =>
          have remaining : cursor.rest ≠ [] := by simp [rest]
          rw [List.head?_cons]
          split
          · contradiction
          · rename_i same
            cases same
            have moved : cursor.advance 1 = ⟨cursor.offset + 1, cursor.line, behind⟩ :=
              Cursor.advance_one rest
            simp [DoubleQuoted.body, bodyRead, moved]
          · rename_i same
            cases same
            have moved : cursor.advance 1 = ⟨cursor.offset + 1, cursor.line, behind⟩ :=
              Cursor.advance_one rest
            simp [DoubleQuoted.body, bodyRead, moved]
          · rename_i same
            cases same
            rw [takeEscape?_eq place rest]
            cases behind with
            | nil => simp [DoubleQuoted.body, bodyRead]
            | cons code more =>
                have loop := again 2 (DoubleQuoted.unescape code) Nat.two_pos remaining
                rw [rest] at loop
                rw [DoubleQuoted.body, bodyRead_prepend]
                exact loop
          · rename_i character notQuote notBrace notBackslash same
            cases same
            have moved := Cursor.advance_one rest
            have loop := again 1 [first] Nat.one_pos remaining
            rw [rest] at loop
            rw [DoubleQuoted.body_cons notQuote notBrace notBackslash, bodyRead_prepend]
            rw [moved] at loop ⊢
            exact loop

theorem isTerminator_text (line : Text) (label : Label) :
    isTerminator line label.text = label.closes line := rfl

theorem offset_advance_label {cursor : Cursor} {label : Label}
    (closes : label.closes cursor.rest)
    (plain : ∀ character, character ∈ label.text → isPlain character) :
    (cursor.advance label.length).offset =
        cursor.offset + Text.byteLength label.text ∧
      (cursor.advance label.length).line = cursor.line := by
  have starts : label.text.isPrefixOf cursor.rest := by
    simp only [Label.closes, Bool.and_eq_true] at closes
    exact closes.1
  have here : Text.Plain cursor.rest label.length := .of_isPrefixOf starts plain
  rw [Cursor.offset_advance_of_plain here, Cursor.line_advance_of_plain here,
    Text.Plain.byteLength_of_all plain]
  exact ⟨rfl, rfl⟩

theorem heredocBody?_eq {source : Source} {label : Label} {cursor : Cursor} {fuel : Nat}
    (place : cursor.IsPlaceOf source.content) (enough : cursor.rest.length < fuel)
    (plain : ∀ character, character ∈ label.text → isPlain character)
    (atLineStart : Bool) (value : Text) :
    heredocBody? source label.text fuel atLineStart value cursor.offset cursor.line =
      some (bodyRead cursor value
        ((DocString.heredocBody label atLineStart cursor.rest).ending == .closed)
        (DocString.heredocBody label atLineStart cursor.rest)) := by
  induction fuel generalizing cursor value atLineStart with
  | zero => omega
  | succ fuel ih =>
      have again : ∀ count flag more, 0 < count → cursor.rest ≠ [] →
          heredocBody? source label.text fuel flag (value ++ more)
            (cursor.advance count).offset (cursor.advance count).line =
          some (bodyRead (cursor.advance count) (value ++ more)
            ((DocString.heredocBody label flag (cursor.rest.drop count)).ending == .closed)
            (DocString.heredocBody label flag (cursor.rest.drop count))) := by
        intro count flag more positive remaining
        have shorter := Cursor.length_rest_advance_lt remaining positive
        exact ih (place.advance count) (by omega) flag (value ++ more)
      rw [heredocBody?, place.tail?_eq]
      simp only [Option.bind_eq_bind, Option.bind_some]
      split
      · rename_i closing
        rw [isTerminator_text] at closing
        have closes : label.closes cursor.rest := by
          simp only [Bool.and_eq_true] at closing
          exact closing.2
        obtain ⟨offset, line⟩ := offset_advance_label closes plain
        have flag : atLineStart = true := by
          simp only [Bool.and_eq_true] at closing
          exact closing.1
        rw [DocString.heredocBody_closing closing]
        simp [bodyRead, offset, line, flag]
      · rename_i closing
        have goes : (atLineStart && label.closes cursor.rest) = false := by
          simpa [isTerminator_text] using closing
        cases rest : cursor.rest with
        | nil =>
            rw [rest] at goes
            rw [DocString.heredocBody_nil goes]
            simp [bodyRead]
        | cons first behind =>
            rw [rest] at goes again
            rw [List.head?_cons]
            split
            · contradiction
            · rename_i same
              cases same
              have moved : cursor.advance 1 = ⟨cursor.offset + 1, cursor.line, behind⟩ :=
                Cursor.advance_one rest
              rw [DocString.heredocBody_brace goes]
              simp [bodyRead, moved]
            · rename_i same
              cases same
              rw [takeEscape?_eq place rest]
              cases behind with
              | nil =>
                  rw [DocString.heredocBody_lastBackslash goes]
                  simp [bodyRead]
              | cons code more =>
                  have loop := again 2 false ['\\', code] Nat.two_pos (by simp)
                  rw [DocString.heredocBody_backslash goes, bodyRead_prepend]
                  exact loop
            · rename_i character notBrace notBackslash same
              cases same
              have moved := Cursor.advance_one rest
              have loop := again 1 (first == '\n') [first] Nat.one_pos (by simp)
              rw [DocString.heredocBody_cons goes notBrace notBackslash, bodyRead_prepend]
              rw [moved] at loop ⊢
              exact loop

/-- Bytes that mean nothing in a single-quoted string. -/
def isOrdinary (byte : UInt8) : Prop :=
  byte ≠ 0x27 ∧ byte ≠ 0x5c ∧ byte ≠ 0x0a

theorem singleQuotedBody?_ordinary {source : Source} {start fuel segment cursor line : Nat}
    {value : Text} {count : Nat}
    (ordinary : ∀ index, index < count → ∃ byte,
      (Text.bytes source.content)[cursor + index]? = some byte ∧ isOrdinary byte) :
    singleQuotedBody? source start (fuel + count) value segment cursor line =
      singleQuotedBody? source start fuel value segment (cursor + count) line := by
  induction count generalizing cursor with
  | zero => rfl
  | succ count ih =>
      obtain ⟨byte, found, notQuote, notBackslash, notFeed⟩ := ordinary 0 (Nat.succ_pos _)
      have more : ∀ index, index < count → ∃ byte,
          (Text.bytes source.content)[cursor + 1 + index]? = some byte ∧
            isOrdinary byte := by
        intro index below
        have next := ordinary (index + 1) (Nat.succ_lt_succ below)
        rwa [Nat.add_comm index 1, ← Nat.add_assoc] at next
      rw [← Nat.add_assoc, singleQuotedBody?]
      rw [Nat.add_zero] at found
      simp only [found, notQuote, notBackslash, notFeed, if_false, false_and]
      rw [ih more, Nat.add_assoc, Nat.add_comm 1 count]

theorem isOrdinary_of_mem {character : Char} {byte : UInt8}
    (notQuote : character ≠ '\'') (notBackslash : character ≠ '\\')
    (notFeed : character ≠ '\n') (member : byte ∈ String.utf8EncodeChar character) :
    isOrdinary byte := by
  have differs : ∀ code : Char, code.toNat < 128 → character ≠ code →
      byte.toNat ≠ code.toNat := by
    intro code ascii other same
    obtain ⟨_, value⟩ := Text.eq_of_mem_utf8EncodeChar member (by omega)
    exact other (Char.toNat_inj.mp (value.trans same))
  refine ⟨?_, ?_, ?_⟩
  · rintro rfl
    exact differs '\'' (by decide) notQuote rfl
  · rintro rfl
    exact differs '\\' (by decide) notBackslash rfl
  · rintro rfl
    exact differs '\n' (by decide) notFeed rfl

/-- The first byte behind a place is the code of an ASCII character only if that
character stands there. -/
theorem head?_of_getElem?_bytes {text : Text} {byte : UInt8} (code : Char)
    (found : (Text.bytes text)[0]? = some byte) (same : byte.toNat = code.toNat)
    (ascii : code.toNat < 128) : text.head? = some code := by
  cases text with
  | nil => cases found
  | cons first behind =>
      have member : byte ∈ String.utf8EncodeChar first := by
        have size := first.utf8Size_pos
        rw [Text.bytes_cons, List.getElem?_append_left (by simpa using size)] at found
        exact List.mem_of_getElem? found
      obtain ⟨_, value⟩ := Text.eq_of_mem_utf8EncodeChar member (by omega)
      rw [List.head?_cons, Char.toNat_inj.mp (value.trans same)]

/-- The first of the bytes at a place. -/
theorem byte_at {source : Source} {here : Cursor} {text : Text}
    (place : here.IsPlaceOf source.content) (rest : here.rest = text) :
    (Text.bytes source.content)[here.offset]? = (Text.bytes text)[0]? := by
  rw [← rest]
  exact place.getElem?_bytes 0

theorem singleQuotedBody?_backslash {source : Source} {start fuel segment : Nat} {value : Text}
    {here : Cursor} {behind : Text} (place : here.IsPlaceOf source.content)
    (rest : here.rest = '\\' :: behind) (noQuote : behind.head? ≠ some '\'')
    (noBackslash : behind.head? ≠ some '\\') :
    singleQuotedBody? source start (fuel + 1) value segment here.offset here.line =
      singleQuotedBody? source start fuel value segment (here.offset + 1) here.line := by
  have found : (Text.bytes source.content)[here.offset]? = some 0x5c := byte_at place rest
  have next : (Text.bytes source.content)[here.offset + 1]? = (Text.bytes behind)[0]? := by
    have byte := byte_at (place.advance 1) rfl
    rw [Cursor.advance_one rest] at byte
    exact byte
  have unescaped : ¬ ((Text.bytes source.content)[here.offset + 1]? = some 0x27 ∨
      (Text.bytes source.content)[here.offset + 1]? = some 0x5c) := by
    rw [next]
    rintro (quote | other)
    · exact noQuote (head?_of_getElem?_bytes '\'' quote rfl (by decide))
    · exact noBackslash (head?_of_getElem?_bytes '\\' other rfl (by decide))
  rw [singleQuotedBody?]
  simp only [found]
  rw [if_neg (by decide), if_neg (fun escape => unescaped escape.2)]
  rfl

theorem singleQuotedBody?_feed {source : Source} {start fuel segment : Nat} {value : Text}
    {here : Cursor} {behind : Text} (place : here.IsPlaceOf source.content)
    (rest : here.rest = '\n' :: behind) :
    singleQuotedBody? source start (fuel + 1) value segment here.offset here.line =
      singleQuotedBody? source start fuel value segment (here.offset + 1) (here.line + 1) := by
  have found : (Text.bytes source.content)[here.offset]? = some 0x0a := byte_at place rest
  rw [singleQuotedBody?]
  simp only [found]
  rw [if_neg (by decide), if_neg (fun escape => absurd escape.1 (by decide))]
  rfl

theorem singleQuotedBody?_character {source : Source} {start fuel segment : Nat}
    {value : Text} {here : Cursor} {first : Char} {behind : Text}
    (place : here.IsPlaceOf source.content) (rest : here.rest = first :: behind)
    (notQuote : first ≠ '\'')
    (noEscape : first = '\\' → behind.head? ≠ some '\'' ∧ behind.head? ≠ some '\\') :
    singleQuotedBody? source start (fuel + first.utf8Size) value segment here.offset
        here.line =
      singleQuotedBody? source start fuel value segment (here.advance 1).offset
        (here.advance 1).line := by
  have moved := Cursor.advance_one rest
  rw [moved]
  by_cases backslash : first = '\\'
  · subst backslash
    exact singleQuotedBody?_backslash place rest (noEscape rfl).1 (noEscape rfl).2
  · by_cases feed : first = '\n'
    · subst feed
      exact singleQuotedBody?_feed place rest
    · have line : lineBehind here.line first = here.line := if_neg feed
      rw [line]
      apply singleQuotedBody?_ordinary
      intro index below
      have inside : index < (String.utf8EncodeChar first).length := by simpa using below
      refine ⟨(String.utf8EncodeChar first)[index], ?_, ?_⟩
      · rw [place.getElem?_bytes, rest, Text.bytes_cons,
          List.getElem?_append_left inside, List.getElem?_eq_getElem inside]
      · exact isOrdinary_of_mem notQuote backslash feed (List.getElem_mem inside)

/-- What the loop over a single-quoted string gives behind a part of the value
that has been read. -/
def quotedRead (source : Source) (start : Nat) (value : Text) (here : Cursor) :
    Option (Text × Nat) → Option (Except LexicalError (Text × Nat × Nat))
  | none =>
      (source.span? start (start + 1)).map fun span =>
        .error { cause := .unterminatedString .single, span, line := here.toEnd.line }
  | some (more, count) =>
      some (.ok (value ++ more, (here.advance count).offset, (here.advance count).line))

theorem quotedRead_map (source : Source) (start : Nat) (value more : Text)
    (here : Cursor) (count : Nat) (read : Option (Text × Nat)) :
    quotedRead source start value here
        (read.map fun read => (more ++ read.1, count + read.2)) =
      quotedRead source start (value ++ more) (here.advance count) read := by
  cases read with
  | none =>
      rw [Option.map_none, quotedRead, quotedRead, Cursor.toEnd_advance]
  | some read => simp [quotedRead, Cursor.advance_advance]

/-- An escaped quote or backslash is added to the value behind what has been
passed since the last one. -/
theorem singleQuotedBody?_escape {source : Source} {start fuel : Nat} {value : Text}
    {segment here : Cursor} {code : Char} {behind : Text}
    (place : segment.IsPlaceOf source.content) (reaches : segment.Reaches here)
    (rest : here.rest = '\\' :: code :: behind) (codes : code = '\'' ∨ code = '\\') :
    singleQuotedBody? source start (fuel + 1) value segment.offset here.offset here.line =
      singleQuotedBody? source start fuel
        (value ++ (segment.spanTo here).text ++ [code]) (here.advance 2).offset
        (here.advance 2).offset (here.advance 2).line := by
  have herePlace : here.IsPlaceOf source.content := Cursor.Reaches.trans place reaches
  have found : (Text.bytes source.content)[here.offset]? = some 0x5c := byte_at herePlace rest
  have next : (Text.bytes source.content)[here.offset + 1]? =
      some (UInt8.ofNat code.toNat) := by
    have byte := herePlace.getElem?_bytes 1
    rw [rest] at byte
    rcases codes with rfl | rfl
    · exact byte
    · exact byte
  have plain : Text.Plain here.rest 2 := by
    rw [rest]
    rcases codes with rfl | rfl
    · exact .cons (by decide) (.one (by decide))
    · exact .cons (by decide) (.one (by decide))
  rw [Cursor.offset_advance_of_plain plain, Cursor.line_advance_of_plain plain]
  rw [singleQuotedBody?]
  simp only [found, next]
  rw [place.slice?_eq reaches, if_neg (by decide)]
  rcases codes with rfl | rfl
  · rfl
  · rfl

theorem quotedRead_of_escape {source : Source} {start fuel : Nat} {value : Text}
    {segment here : Cursor} {code : Char} {behind : Text}
    (place : segment.IsPlaceOf source.content) (reaches : segment.Reaches here)
    (rest : here.rest = '\\' :: code :: behind) (codes : code = '\'' ∨ code = '\\')
    (later : ∀ value, singleQuotedBody? source start fuel value (here.advance 2).offset
        (here.advance 2).offset (here.advance 2).line =
      quotedRead source start
        (value ++ ((here.advance 2).spanTo (here.advance 2)).text) (here.advance 2)
        (SingleQuoted.body behind)) :
    singleQuotedBody? source start (fuel + 1) value segment.offset here.offset here.line =
      quotedRead source start (value ++ (segment.spanTo here).text) here
        (SingleQuoted.body ('\\' :: code :: behind)) := by
  rw [singleQuotedBody?_escape place reaches rest codes, later,
    Cursor.text_spanTo_self, List.append_nil, SingleQuoted.body_escape codes,
    quotedRead_map source start _ [code] here 2]

theorem singleQuotedBody?_end {source : Source} {start fuel : Nat} {value : Text}
    {segment here : Cursor} (place : here.IsPlaceOf source.content) (rest : here.rest = []) :
    singleQuotedBody? source start (fuel + 1) value segment.offset here.offset here.line =
      quotedRead source start (value ++ (segment.spanTo here).text) here none := by
  have found : (Text.bytes source.content)[here.offset]? = none := byte_at place rest
  have finished : here.toEnd = here := Cursor.advance_of_rest_nil rest _
  rw [singleQuotedBody?]
  simp only [found]
  rw [quotedRead, finished]
  cases source.span? start (start + 1) with
  | none => rfl
  | some span => rfl

theorem singleQuotedBody?_quote {source : Source} {start fuel : Nat} {value behind : Text}
    {segment here : Cursor} (place : segment.IsPlaceOf source.content)
    (reaches : segment.Reaches here) (rest : here.rest = '\'' :: behind) :
    singleQuotedBody? source start (fuel + 1) value segment.offset here.offset here.line =
      quotedRead source start (value ++ (segment.spanTo here).text) here (some ([], 1)) := by
  have herePlace : here.IsPlaceOf source.content := Cursor.Reaches.trans place reaches
  have found : (Text.bytes source.content)[here.offset]? = some 0x27 := byte_at herePlace rest
  have moved : here.advance 1 = ⟨here.offset + 1, here.line, behind⟩ := Cursor.advance_one rest
  rw [singleQuotedBody?]
  simp only [found]
  rw [place.slice?_eq reaches]
  simp [quotedRead, moved]

theorem singleQuotedBody?_eq {source : Source} (start : Nat) {segment here : Cursor}
    {fuel : Nat} (place : segment.IsPlaceOf source.content)
    (reaches : segment.Reaches here) (enough : Text.byteLength here.rest < fuel)
    (value : Text) :
    singleQuotedBody? source start fuel value segment.offset here.offset here.line =
      quotedRead source start (value ++ (segment.spanTo here).text) here
        (SingleQuoted.body here.rest) := by
  -- The loop goes by bytes and the body by characters, so the fuel counts bytes
  -- while the induction is on the characters that are left.
  generalize text : here.rest = rest at enough
  induction rest using SingleQuoted.body.induct generalizing segment here value fuel with
  | case1 =>
      obtain ⟨fuel, rfl⟩ := Nat.exists_eq_succ_of_ne_zero (Nat.ne_of_gt enough)
      rw [SingleQuoted.body]
      exact singleQuotedBody?_end (Cursor.Reaches.trans place reaches) text
  | case2 behind =>
      obtain ⟨fuel, rfl⟩ :=
        Nat.exists_eq_succ_of_ne_zero (Nat.ne_of_gt (Nat.zero_lt_of_lt enough))
      rw [SingleQuoted.body]
      exact singleQuotedBody?_quote place reaches text
  | case3 behind ih =>
      obtain ⟨fuel, rfl⟩ :=
        Nat.exists_eq_succ_of_ne_zero (Nat.ne_of_gt (Nat.zero_lt_of_lt enough))
      apply quotedRead_of_escape place reaches text (.inl rfl)
      intro value
      apply ih ((Cursor.Reaches.trans place reaches).thenAdvance 2) (.refl _)
      · rw [Cursor.rest_advance, text]
        rfl
      · have size := '\\'.utf8Size_pos
        simp only [Text.byteLength_cons] at enough
        omega
  | case4 behind ih =>
      obtain ⟨fuel, rfl⟩ :=
        Nat.exists_eq_succ_of_ne_zero (Nat.ne_of_gt (Nat.zero_lt_of_lt enough))
      apply quotedRead_of_escape place reaches text (.inr rfl)
      intro value
      apply ih ((Cursor.Reaches.trans place reaches).thenAdvance 2) (.refl _)
      · rw [Cursor.rest_advance, text]
        rfl
      · have size := '\\'.utf8Size_pos
        simp only [Text.byteLength_cons] at enough
        omega
  | case5 first behind notQuote noEscapedQuote noEscapedBackslash ih =>
      have herePlace : here.IsPlaceOf source.content := Cursor.Reaches.trans place reaches
      rw [Text.byteLength_cons] at enough
      obtain ⟨fewer, rfl⟩ := Nat.exists_eq_add_of_lt enough
      have noEscape : first = '\\' →
          behind.head? ≠ some '\'' ∧ behind.head? ≠ some '\\' := by
        intro backslash
        constructor
        · intro quote
          obtain ⟨more, same⟩ := List.head?_eq_some_iff.mp quote
          exact noEscapedQuote more backslash same
        · intro other
          obtain ⟨more, same⟩ := List.head?_eq_some_iff.mp other
          exact noEscapedBackslash more backslash same
      have split : first.utf8Size + Text.byteLength behind + fewer + 1 =
          (Text.byteLength behind + fewer + 1) + first.utf8Size := by omega
      have later := ih place (reaches.thenAdvance 1) value
        (by rw [Cursor.rest_advance, text]; rfl)
        (Nat.lt_succ_of_le (Nat.le_add_right (Text.byteLength behind) fewer))
      rw [split, singleQuotedBody?_character herePlace text notQuote noEscape, later,
        SingleQuoted.body_cons notQuote noEscape]
      refine Eq.trans ?_ (quotedRead_map source start _ [first] here 1 _).symm
      rw [reaches.text_spanTo_advance, text, List.append_assoc]
      rfl

theorem nowdocEnd?_eq {source : Source} {label : Label} {here : Cursor} {fuel : Nat}
    (place : here.IsPlaceOf source.content) (enough : here.rest.length < fuel) :
    nowdocEnd? source label.text fuel here.offset here.line =
      some
        (match DocString.nowdocBody label true here.rest with
        | none => .error here.toEnd.line
        | some value =>
            .ok ((here.advance value.length).offset, (here.advance value.length).line)) := by
  induction fuel generalizing here with
  | zero => omega
  | succ fuel ih =>
      rw [nowdocEnd?, place.tail?_eq]
      simp only [Option.bind_eq_bind, Option.bind_some]
      split
      · rename_i closing
        rw [isTerminator_text] at closing
        have body : DocString.nowdocBody label true here.rest = some [] := by
          rw [DocString.nowdocBody.eq_def, Bool.true_and, if_pos closing]
        rw [body]
        simp
      · rename_i closing
        have goes : label.closes here.rest = false := by
          simpa [isTerminator_text] using closing
        rw [DocString.nowdocBody_of_not_closes goes]
        rcases Text.findOffset?_feed here.rest with
          ⟨line, behind, rest, noFeed, count, found⟩ | ⟨noFeed, count, missing⟩
        · have moved := Cursor.advance_line rest noFeed
          have inside : line.length + 1 ≤ here.rest.length := by
            rw [rest, List.length_append, List.length_cons]
            omega
          have behindLine : (here.advance (line.length + 1)).rest = behind := by
            rw [moved]
          have later := ih (place.advance (line.length + 1)) (by
            rw [Cursor.rest_advance, List.length_drop]
            omega)
          rw [behindLine] at later
          have body : DocString.nowdocBody label false here.rest =
              (DocString.nowdocBody label true behind).map (line ++ '\n' :: ·) := by
            rw [rest]
            exact DocString.nowdocBody_inLine noFeed
          have start : nowdocEnd? source label.text fuel
              (here.offset + Text.byteLength line + 1) (here.line + 1) =
              nowdocEnd? source label.text fuel (here.advance (line.length + 1)).offset
                (here.advance (line.length + 1)).line := by
            rw [moved]
          rw [found, body]
          dsimp only
          rw [start, later]
          cases DocString.nowdocBody label true behind with
          | none =>
              rw [Option.map_none, Cursor.toEnd_advance]
          | some value =>
              simp [Cursor.advance_advance, Nat.add_assoc, Nat.add_comm 1]
        · rw [missing, DocString.nowdocBody_inLastLine noFeed]
          dsimp only
          rw [Cursor.toEnd_line noFeed]
          rfl

end ModeStack

end HackLexer
