import HackLexer.Proofs.Cuts
import HackLexer.Proofs.Lookahead
import HackLexer.Proofs.ModeStack.DocStrings

/-!
# How far the searches look

A search for what closes a comment or a string goes over all characters before
it.  What it finds in a text is not changed by what follows the text; and what it
finds in a longer text it finds in a front part as well, if it lies within that
part.  Only the label that closes a doc string depends on the character behind
it, which must not belong to a longer name.
-/

namespace HackLexer

namespace Text

theorem isPrefixOf_eq_false_of_short {pattern text : Text}
    (short : text.length < pattern.length) : pattern.isPrefixOf text = false := by
  rw [← Bool.not_eq_true, List.isPrefixOf_iff_prefix]
  intro starts
  exact Nat.not_le_of_lt short starts.length_le

theorem findFrom_of_short {pattern text : Text} {index : Nat}
    (short : text.length < pattern.length) : findFrom pattern index text = none := by
  induction text generalizing index with
  | nil => simp [findFrom, isPrefixOf_eq_false_of_short short]
  | cons first rest ih =>
      rw [findFrom, isPrefixOf_eq_false_of_short short]
      exact ih (Nat.lt_of_succ_lt short)

theorem findFrom_append (pattern : Text) (index : Nat) (text tail : Text) :
    findFrom pattern index (text ++ tail) = findFrom pattern index text ∨
      findFrom pattern index text = none ∧
        ∀ found, findFrom pattern index (text ++ tail) = some found →
          index + text.length < found + pattern.length := by
  induction text generalizing index with
  | nil =>
      cases pattern with
      | nil =>
          left
          rw [findFrom.eq_def]
          rfl
      | cons mark more =>
          right
          refine ⟨rfl, ?_⟩
          intro found search
          have bound := (findFrom_some search).1
          simp only [List.length_nil, List.length_cons]
          omega
  | cons first rest ih =>
      rcases Nat.lt_or_ge (first :: rest).length pattern.length with short | fits
      · right
        refine ⟨findFrom_of_short short, ?_⟩
        intro found search
        have bound := (findFrom_some search).1
        omega
      · have starts := isPrefixOf_append_of_length_le tail fits
        rw [List.cons_append] at starts ⊢
        rw [findFrom, starts, findFrom]
        split
        · exact .inl rfl
        · rcases ih (index + 1) with same | ⟨missing, beyond⟩
          · exact .inl same
          · right
            refine ⟨missing, ?_⟩
            intro found search
            have far := beyond found search
            rw [List.length_cons]
            omega

/-- The first occurrence of a pattern stays where it is if a text is continued,
and if there is none, it lies partly in the continuation. -/
theorem find?_append (pattern text tail : Text) :
    find? pattern (text ++ tail) = find? pattern text ∨
      find? pattern text = none ∧
        ∀ found, find? pattern (text ++ tail) = some found →
          text.length < found + pattern.length := by
  have outcome := findFrom_append pattern 0 text tail
  rwa [Nat.zero_add] at outcome

end Text

namespace SingleQuoted

theorem body_positive {text value : Text} {count : Nat}
    (read : body text = some (value, count)) : 0 < count := by
  unfold body at read
  split at read
  · cases read
  · cases read
    exact Nat.one_pos
  all_goals
    obtain ⟨more, _, same⟩ := Option.map_eq_some_iff.mp read
    cases same
    omega

theorem body_within {text value : Text} {count : Nat}
    (read : body text = some (value, count)) : count ≤ text.length := by
  induction text using body.induct generalizing value count with
  | case1 => cases read
  | case2 behind =>
      cases read
      exact Nat.succ_pos _
  | case3 rest ih =>
      obtain ⟨more, inner, same⟩ := Option.map_eq_some_iff.mp read
      cases same
      have bound := ih inner
      simp only [List.length_cons]
      omega
  | case4 rest ih =>
      obtain ⟨more, inner, same⟩ := Option.map_eq_some_iff.mp read
      cases same
      have bound := ih inner
      simp only [List.length_cons]
      omega
  | case5 first rest notQuote notQuoteBehind notBackslashBehind ih =>
      rw [body] at read
      · obtain ⟨more, inner, same⟩ := Option.map_eq_some_iff.mp read
        cases same
        have bound := ih inner
        simp only [List.length_cons]
        omega
      · exact notQuote
      · exact notQuoteBehind
      · exact notBackslashBehind

theorem map_append {read longer : Option (Text × Nat)} {text value : Text} {count : Nat}
    (outcome : longer = read ∨
      read = none ∧ ∀ result, longer = some result → text.length < result.2) :
    (longer.map fun read => (value ++ read.1, count + read.2)) =
        (read.map fun read => (value ++ read.1, count + read.2)) ∨
      (read.map fun read => (value ++ read.1, count + read.2)) = none ∧
        ∀ result, (longer.map fun read => (value ++ read.1, count + read.2)) = some result →
          count + text.length < result.2 := by
  rcases outcome with same | ⟨missing, beyond⟩
  · exact .inl (by rw [same])
  · right
    refine ⟨by rw [missing]; rfl, ?_⟩
    intro result found
    obtain ⟨inner, here, rfl⟩ := Option.map_eq_some_iff.mp found
    have far := beyond inner here
    exact Nat.add_lt_add_left far count

/-- The closing quote stays where it is if a text is continued. -/
theorem body_append (text tail : Text) :
    body (text ++ tail) = body text ∨
      body text = none ∧ ∀ read, body (text ++ tail) = some read → text.length < read.2 := by
  induction text using body.induct with
  | case1 => exact .inr ⟨rfl, fun read found => body_positive found⟩
  | case2 behind => exact .inl rfl
  | case3 rest ih =>
      have outcome := @map_append _ _ _ ['\''] 2 ih
      rw [Nat.add_comm] at outcome
      exact outcome
  | case4 rest ih =>
      have outcome := @map_append _ _ _ ['\\'] 2 ih
      rw [Nat.add_comm] at outcome
      exact outcome
  | case5 first rest notQuote notQuoteBehind notBackslashBehind ih =>
      have short : first = '\\' → rest.head? ≠ some '\'' ∧ rest.head? ≠ some '\\' := by
        intro backslash
        cases rest with
        | nil => simp
        | cons second more =>
            refine ⟨?_, ?_⟩
            · intro quote
              exact notQuoteBehind more backslash (by rw [Option.some.inj quote])
            · intro twice
              exact notBackslashBehind more backslash (by rw [Option.some.inj twice])
      rw [body_cons notQuote short]
      by_cases long : first = '\\' →
          (rest ++ tail).head? ≠ some '\'' ∧ (rest ++ tail).head? ≠ some '\\'
      · rw [List.cons_append, body_cons notQuote long]
        have outcome := @map_append _ _ _ [first] 1 ih
        rw [Nat.add_comm] at outcome
        exact outcome
      · -- The backslash is the last character and takes the next one with it.
        simp only [Classical.not_imp, Classical.not_and_iff_not_or_not,
          Decidable.not_not] at long
        obtain ⟨backslash, escaped⟩ := long
        cases rest with
        | cons second more =>
            obtain ⟨noQuote, noBackslash⟩ := short backslash
            exact (escaped.elim noQuote noBackslash).elim
        | nil =>
            cases tail with
            | nil => simp at escaped
            | cons code behind =>
                have codes : code = '\'' ∨ code = '\\' := by simpa using escaped
                rw [List.singleton_append, backslash, body_escape codes]
                refine .inr ⟨rfl, ?_⟩
                intro read found
                obtain ⟨inner, here, rfl⟩ := Option.map_eq_some_iff.mp found
                simp only [List.length_singleton]
                omega

end SingleQuoted

/-- Reading a body comes to the same result in a longer text, or else runs over
the end of the text there.  If the continuation breaks what has begun, this
happens only where the body runs to the end of the text. -/
def Body.Continues (text : Text) (breaks : Prop) (body longer : Body) : Prop :=
  longer = body ∨
    (longer.ending ≠ .endOfText → text.length < longer.length) ∧
      (breaks → body.ending = .endOfText)

theorem Body.Continues.prepend {text : Text} {breaks : Prop} {body longer : Body}
    (continues : body.Continues text breaks longer) (front value : Text) :
    (body.prepend value front.length).Continues (front ++ text) breaks
      (longer.prepend value front.length) := by
  rcases continues with same | ⟨beyond, ended⟩
  · exact .inl (by rw [same])
  · refine .inr ⟨?_, ended⟩
    intro stopped
    have far := beyond stopped
    rw [List.length_append]
    exact Nat.add_lt_add_left far front.length

theorem DoubleQuoted.body_within (text : Text) : (body text).length ≤ text.length := by
  fun_induction body text with
  | case1 => exact Nat.le_refl 0
  | case2 behind => exact Nat.le_add_left 1 _
  | case3 behind => exact Nat.le_add_left 1 _
  | case4 code rest ih =>
      simp only [Body.prepend, List.length_cons]
      omega
  | case5 => exact Nat.le_refl 1
  | case6 first rest _ _ _ _ ih =>
      simp only [Body.prepend, List.length_cons]
      omega

theorem DoubleQuoted.body_append (text tail : Text) :
    (body text).Continues text True (body (text ++ tail)) := by
  induction text using body.induct with
  | case1 => exact .inr ⟨fun stopped => (body_progress stopped).2, fun _ => rfl⟩
  | case2 behind => exact .inl rfl
  | case3 behind => exact .inl rfl
  | case4 code rest ih => exact ih.prepend ['\\', code] (unescape code)
  | case5 =>
      cases tail with
      | nil => exact .inl rfl
      | cons code behind =>
          refine .inr ⟨fun _ => ?_, fun _ => rfl⟩
          change 1 < 2 + (body behind).length
          omega
  | case6 first rest notQuote notBrace noPair notLast ih =>
      have notBackslash : first = '\\' → False := by
        intro backslash
        cases rest with
        | nil => exact notLast backslash rfl
        | cons code behind => exact noPair code behind backslash rfl
      rw [List.cons_append, body_cons notQuote notBrace notBackslash,
        body_cons notQuote notBrace notBackslash]
      exact ih.prepend [first] [first]

namespace Label

/-- Labels as a header gives them: upper-case letters, digits and underscores. -/
def Proper (label : Label) : Prop :=
  ∀ character, character ∈ label.text → isPart character

theorem proper_of_ofText? {text : Text} {label : Label} (found : ofText? text = some label) :
    label.Proper := by
  unfold ofText? at found
  split at found
  · cases found
  · rename_i first rest
    simp only [Option.ite_none_right_eq_some, Bool.and_eq_true, Option.some.injEq] at found
    obtain ⟨⟨upper, _⟩, rfl⟩ := found
    intro character member
    rcases List.mem_cons.mp member with rfl | more
    · simp [isPart, upper]
    · exact List.all_eq_true.mp List.all_takeWhile character more

/-- A label within a text closes it if it does so in a longer text. -/
theorem closes_of_append {label : Label} {text tail : Text}
    (closes : label.closes (text ++ tail)) (within : label.length ≤ text.length) :
    label.closes text := by
  simp only [Label.closes, Bool.and_eq_true, Bool.not_eq_true'] at closes ⊢
  obtain ⟨starts, stops⟩ := closes
  rw [Text.isPrefixOf_append_of_length_le tail within] at starts
  rw [List.drop_append_of_le_length within] at stops
  refine ⟨starts, ?_⟩
  cases behind : text.drop label.length with
  | nil => rfl
  | cons next rest =>
      rw [behind] at stops
      exact stops

theorem isAlphanumeric_of_isPart {character : Char} (part : isPart character) :
    isAlphanumeric character := by
  simp only [isPart, Bool.or_eq_true, beq_iff_eq] at part
  rcases part with (upper | digit) | rfl
  · simp [isAlphanumeric, isLetter_of_isUpper upper]
  · simp [isAlphanumeric, digit]
  · rfl

/-- Unless a name goes on behind a text, what follows does not change whether a label
closes it. -/
theorem closes_append_of_stops {label : Label} {text tail : Text} (proper : label.Proper)
    (stops : tail.Stops) : label.closes (text ++ tail) = label.closes text := by
  cases tail with
  | nil => rw [List.append_nil]
  | cons first behind =>
      replace stops : isAlphanumeric first = false := stops
      rcases Nat.lt_or_ge text.length label.length with short | fits
      · have beyond : label.text.isPrefixOf (text ++ first :: behind) = false := by
          rw [← Bool.not_eq_true, List.isPrefixOf_iff_prefix]
          intro starts
          have part : isPart first := by
            apply proper
            rw [List.prefix_iff_eq_take.mp starts]
            exact Text.mem_take_of_beyond short
          rw [isAlphanumeric_of_isPart part] at stops
          cases stops
        rw [Label.closes, Label.closes, beyond, Text.isPrefixOf_eq_false_of_short short]
        rfl
      · rw [Label.closes, Label.closes, Text.isPrefixOf_append_of_length_le _ fits,
          List.drop_append_of_le_length fits]
        cases text.drop label.length with
        | cons next rest => rfl
        | nil =>
            rw [List.nil_append, List.head?_cons, Option.any_some, stops]
            rfl

/-- A text that a label closes, but a longer one not, is the label. -/
theorem eq_text_of_closes {label : Label} {text tail : Text} (closes : label.closes text)
    (goes : label.closes (text ++ tail) = false) : text = label.text := by
  simp only [Label.closes, Bool.and_eq_true, Bool.not_eq_true'] at closes
  obtain ⟨starts, stops⟩ := closes
  have start := List.isPrefixOf_iff_prefix.mp starts
  have fits : label.length ≤ text.length := start.length_le
  cases behind : text.drop label.length with
  | nil =>
      have whole : text.length ≤ label.length := List.drop_eq_nil_iff.mp behind
      exact (start.eq_of_length_le whole).symm
  | cons next rest =>
      rw [Label.closes, Text.isPrefixOf_append_of_length_le tail fits, starts,
        List.drop_append_of_le_length fits, behind] at goes
      rw [behind] at stops
      simp only [List.cons_append, List.head?_cons, Option.any_some] at goes stops
      rw [stops] at goes
      cases goes

/-- Either the label of a text ends within the text, and what follows does not
change it, or the text is nothing but the front of a label. -/
theorem ofText?_append (text tail : Text) :
    (ofText? (text ++ tail) = ofText? text ∧
        ∀ label, ofText? text = some label → label.length < text.length) ∨
      (∀ label, ofText? text = some label → label.length = text.length) ∧
        ∀ label, ofText? (text ++ tail) = some label → text.length ≤ label.length := by
  cases text with
  | nil => exact .inr ⟨nofun, fun _ _ => Nat.zero_le _⟩
  | cons first rest =>
      simp only [List.cons_append, ofText?, List.takeWhile_append,
        Option.ite_none_right_eq_some, Option.some.injEq, and_imp]
      by_cases all : (rest.takeWhile isPart).length = rest.length
      · right
        constructor
        · rintro label _ rfl
          simp [Label.length, Label.text, all]
        · rintro label _ rfl
          simp [Label.length, Label.text, all]
      · left
        rw [if_neg all]
        refine ⟨rfl, ?_⟩
        rintro label _ rfl
        have bound := (List.takeWhile_prefix isPart (l := rest)).length_le
        simp only [Label.length, Label.text, List.length_cons]
        omega

end Label

namespace DocString

/-- Within a line, characters that are neither braces nor backslashes are read over
one by one. -/
theorem heredocBody_plain {label : Label} {front : Text} (noBrace : '\x7b' ∉ front)
    (noBackslash : '\\' ∉ front) (noFeed : '\n' ∉ front) (rest : Text) :
    heredocBody label false (front ++ rest) =
      (heredocBody label false rest).prepend front front.length := by
  induction front with
  | nil =>
      simp only [List.nil_append, Body.prepend, List.length_nil, Nat.zero_add]
  | cons first front ih =>
      simp only [List.mem_cons, not_or] at noBrace noBackslash noFeed
      have inLine : (first == '\n') = false := by
        rw [beq_eq_false_iff_ne]
        exact Ne.symm noFeed.1
      rw [List.cons_append,
        heredocBody_cons rfl (fun brace => noBrace.1 brace.symm)
          (fun backslash => noBackslash.1 backslash.symm),
        inLine, ih noBrace.2 noBackslash.2 noFeed.2]
      simp only [Body.prepend, List.length_cons, List.cons_append, List.nil_append,
        Body.mk.injEq, and_true, true_and]
      omega

/-- The characters of a label are read over one by one within a line. -/
theorem heredocBody_parts {label : Label} {front : Text}
    (parts : ∀ character, character ∈ front → Label.isPart character) (rest : Text) :
    heredocBody label false (front ++ rest) =
      (heredocBody label false rest).prepend front front.length := by
  have other {mark : Char} (noPart : Label.isPart mark = false) : mark ∉ front := by
    intro member
    rw [parts mark member] at noPart
    cases noPart
  exact heredocBody_plain (other rfl) (other rfl) (other rfl) rest

theorem heredocBody_of_not_closes {label : Label} {text : Text}
    (goes : label.closes text = false) :
    heredocBody label true text = heredocBody label false text := by
  rw [heredocBody.eq_def, heredocBody.eq_def label false, goes]
  rfl

/-- Where only the longer text starts with the label, the label reaches over the
end of the text; where only the text does, a name goes on behind the label. -/
theorem heredocBody_append_of_differ {label : Label} (proper : label.Proper)
    {atLineStart : Bool} {text tail : Text}
    (differ : (atLineStart && label.closes (text ++ tail)) ≠
      (atLineStart && label.closes text)) :
    (heredocBody label atLineStart text).Continues text tail.Stops
      (heredocBody label atLineStart (text ++ tail)) := by
  obtain ⟨rfl, closing⟩ : atLineStart = true ∧
      label.closes (text ++ tail) ≠ label.closes text := by
    cases atLineStart with
    | false => exact absurd rfl differ
    | true => exact ⟨rfl, differ⟩
  refine .inr ⟨?_, fun stops => absurd (Label.closes_append_of_stops proper stops) closing⟩
  intro stopped
  cases longer : label.closes (text ++ tail) with
  | true =>
      rw [heredocBody_closing (by rw [longer]; rfl)]
      rcases Nat.lt_or_ge text.length label.length with short | fits
      · exact short
      · rw [longer, Label.closes_of_append longer fits] at closing
        exact absurd rfl closing
  | false =>
      have closes : label.closes text = true := by
        rw [longer] at closing
        exact Bool.not_eq_false _ ▸ Ne.symm closing
      rw [heredocBody_of_not_closes longer] at stopped ⊢
      rw [Label.eq_text_of_closes closes longer, heredocBody_parts proper] at stopped ⊢
      have progress := heredocBody_progress (stopped : (heredocBody label false tail).ending ≠ _)
      change label.text.length < label.text.length + (heredocBody label false tail).length
      omega

/-- Reading a heredoc comes to the same result if its text is continued, or goes
on over the end of the text. -/
theorem heredocBody_append {label : Label} (proper : label.Proper) (atLineStart : Bool)
    (text tail : Text) :
    (heredocBody label atLineStart text).Continues text tail.Stops
      (heredocBody label atLineStart (text ++ tail)) := by
  induction size : text.length using Nat.strongRecOn generalizing atLineStart text with
  | ind size ih =>
      by_cases same : (atLineStart && label.closes (text ++ tail)) =
          (atLineStart && label.closes text)
      case neg => exact heredocBody_append_of_differ proper same
      cases goes : atLineStart && label.closes text with
      | true => exact .inl (by rw [heredocBody_closing goes, heredocBody_closing (same.trans goes)])
      | false =>
          rw [goes] at same
          match text with
          | [] =>
              rw [heredocBody_nil goes]
              exact .inr ⟨fun stopped => (heredocBody_progress stopped).2, fun _ => rfl⟩
          | first :: rest =>
              rw [List.cons_append] at same ⊢
              by_cases brace : first = '\x7b'
              · subst brace
                exact .inl (by rw [heredocBody_brace goes, heredocBody_brace same])
              by_cases backslash : first = '\\'
              · subst backslash
                match rest, tail with
                | [], [] => exact .inl rfl
                | [], code :: behind =>
                    rw [List.nil_append] at same ⊢
                    rw [heredocBody_lastBackslash goes, heredocBody_backslash same]
                    refine .inr ⟨fun _ => ?_, fun _ => rfl⟩
                    change 1 < 2 + (heredocBody label false behind).length
                    omega
                | code :: rest, tail =>
                    rw [List.cons_append] at same ⊢
                    rw [heredocBody_backslash goes, heredocBody_backslash same]
                    exact (ih rest.length (by simp at size; omega) false rest rfl).prepend
                      ['\\', code] ['\\', code]
              rw [heredocBody_cons goes brace backslash, heredocBody_cons same brace backslash]
              exact (ih rest.length (by simp at size; omega) _ rest rfl).prepend [first] [first]

theorem heredocBody_within (label : Label) (atLineStart : Bool) (text : Text) :
    (heredocBody label atLineStart text).length ≤ text.length := by
  fun_induction heredocBody label atLineStart text with
  | case1 atLineStart text closing =>
      simp only [Label.closes, Bool.and_eq_true] at closing
      exact (List.isPrefixOf_iff_prefix.mp closing.2.1).length_le
  | case2 => exact Nat.le_refl 0
  | case3 => exact Nat.le_add_left 1 _
  | case4 atLineStart code rest _ ih =>
      simp only [Body.prepend, List.length_cons]
      omega
  | case5 => exact Nat.le_refl 1
  | case6 atLineStart first rest _ _ _ _ ih =>
      simp only [Body.prepend, List.length_cons]
      omega

theorem nowdocBody_nil (label : Label) (atLineStart : Bool) :
    nowdocBody label atLineStart [] = none := by
  rw [nowdocBody, label.closes_nil, Bool.and_false]
  rfl

theorem nowdocBody_closing {label : Label} {atLineStart : Bool} {text : Text}
    (closing : (atLineStart && label.closes text) = true) :
    nowdocBody label atLineStart text = some [] := by
  rw [nowdocBody.eq_def, if_pos closing]

theorem nowdocBody_cons {label : Label} {atLineStart : Bool} {first : Char} {rest : Text}
    (goes : (atLineStart && label.closes (first :: rest)) = false) :
    nowdocBody label atLineStart (first :: rest) =
      (nowdocBody label (first == '\n') rest).map (first :: ·) := by
  rw [nowdocBody, goes]
  rfl

/-- The label that closes a nowdoc stays where it is if the text is continued,
unless a name goes on behind it. -/
theorem nowdocBody_append {label : Label} (proper : label.Proper) (atLineStart : Bool)
    (text tail : Text) :
    nowdocBody label atLineStart (text ++ tail) = nowdocBody label atLineStart text ∨
      (∀ value, nowdocBody label atLineStart (text ++ tail) = some value →
        text.length < value.length + label.length) ∧
      (tail.Stops → nowdocBody label atLineStart text = none) := by
  induction text generalizing atLineStart with
  | nil =>
      have positive := label.length_pos
      refine .inr ⟨fun value _ => ?_, fun _ => nowdocBody_nil label atLineStart⟩
      rw [List.length_nil]
      omega
  | cons first rest ih =>
      have unbroken : tail.Stops → (atLineStart && label.closes (first :: rest ++ tail)) =
          (atLineStart && label.closes (first :: rest)) := by
        intro stops
        rw [Label.closes_append_of_stops proper stops]
      cases small : atLineStart && label.closes (first :: rest) with
      | true =>
          rw [small] at unbroken
          cases large : atLineStart && label.closes (first :: rest ++ tail) with
          | true => exact .inl (by rw [nowdocBody_closing large, nowdocBody_closing small])
          | false =>
              rw [large] at unbroken
              refine .inr ⟨?_, fun stops => absurd (unbroken stops) Bool.false_ne_true⟩
              intro value found
              rw [List.cons_append] at large found
              rw [nowdocBody_cons large] at found
              obtain ⟨more, _, rfl⟩ := Option.map_eq_some_iff.mp found
              simp only [Bool.and_eq_true] at small
              rw [small.1, Bool.true_and] at large
              have whole := Label.eq_text_of_closes small.2 large
              have size : (first :: rest).length = label.length := by rw [whole]; rfl
              rw [size, List.length_cons]
              omega
      | false =>
          rw [small] at unbroken
          cases large : atLineStart && label.closes (first :: rest ++ tail) with
          | true =>
              rw [large] at unbroken
              refine .inr ⟨?_, fun stops => absurd (unbroken stops).symm Bool.false_ne_true⟩
              intro value found
              rw [nowdocBody_closing large] at found
              cases found
              simp only [Bool.and_eq_true] at large
              rcases Nat.lt_or_ge (first :: rest).length label.length with short | fits
              · simpa using short
              · rw [large.1, Label.closes_of_append large.2 fits] at small
                cases small
          | false =>
              rw [List.cons_append] at large ⊢
              rw [nowdocBody_cons large, nowdocBody_cons small]
              rcases ih (first == '\n') with same | ⟨beyond, missing⟩
              · exact .inl (by rw [same])
              · refine .inr ⟨?_, ?_⟩
                · intro value found
                  obtain ⟨more, here, rfl⟩ := Option.map_eq_some_iff.mp found
                  have far := beyond more here
                  simp only [List.length_cons]
                  omega
                · intro stops
                  rw [missing stops]
                  rfl

theorem lineBreak?_eq (text : Text) :
    lineBreak? text =
      if text.head? = some '\n' then some 1
      else if text.take 2 = ['\r', '\n'] then some 2
      else none := by
  unfold lineBreak?
  split
  · rfl
  · rfl
  · rename_i notFeed notReturn
    rw [if_neg, if_neg]
    · intro taken
      match text with
      | first :: second :: rest => exact notReturn rest (by simpa using taken)
    · intro feed
      match text with
      | first :: rest => exact notFeed rest (by simpa using feed)

theorem lineBreak?_append (text tail : Text) :
    lineBreak? (text ++ tail) = lineBreak? text ∨
      lineBreak? text = none ∧
        ∀ count, lineBreak? (text ++ tail) = some count → text.length < count := by
  match text with
  | [] =>
      refine .inr ⟨rfl, ?_⟩
      intro count found
      unfold lineBreak? at found
      split at found <;> cases found <;> decide
  | [first] =>
      by_cases feed : first = '\n'
      · exact .inl (by rw [feed]; rfl)
      · refine .inr ⟨by simp [lineBreak?_eq, feed], ?_⟩
        intro count found
        rw [lineBreak?_eq, if_neg (by simpa using feed)] at found
        split at found <;> cases found
        exact Nat.one_lt_two
  | first :: second :: rest =>
      left
      rw [lineBreak?_eq, lineBreak?_eq]
      rfl

/-- A line break behind the quote that ends a quoted label. -/
def quotedBreak? : Text → Option Nat
  | '\'' :: rest => lineBreak? rest
  | _ => none

theorem quotedBreak?_append (text tail : Text) :
    quotedBreak? (text ++ tail) = quotedBreak? text ∨
      quotedBreak? text = none ∧
        ∀ count, quotedBreak? (text ++ tail) = some count → text.length < 1 + count := by
  match text with
  | [] => exact .inr ⟨rfl, fun count _ => by rw [List.length_nil]; omega⟩
  | first :: rest =>
      by_cases quote : first = '\''
      · subst quote
        rcases lineBreak?_append rest tail with same | ⟨missing, beyond⟩
        · exact .inl same
        · refine .inr ⟨missing, ?_⟩
          intro count found
          have far := beyond count found
          rw [List.length_cons]
          omega
      · left
        unfold quotedBreak?
        split <;> simp_all

/-- The label at the front of a text, with what must stand behind it. -/
def headed? (ending : Text → Option Nat) (text : Text) : Option (Label × Nat) :=
  match Label.ofText? text with
  | none => none
  | some label => (ending (text.drop label.length)).map fun count => (label, count)

theorem headed?_append {ending : Text → Option Nat} (skipped : Nat)
    (ended : ∀ text tail, ending (text ++ tail) = ending text ∨
      ending text = none ∧ ∀ count, ending (text ++ tail) = some count →
        text.length < skipped + count)
    (nil : ending [] = none) (text tail : Text) :
    headed? ending (text ++ tail) = headed? ending text ∨
      headed? ending text = none ∧
        ∀ label count, headed? ending (text ++ tail) = some (label, count) →
          text.length < label.length + (skipped + count) := by
  unfold headed?
  rcases Label.ofText?_append text tail with ⟨same, within⟩ | ⟨whole, beyond⟩
  · rw [same]
    cases found : Label.ofText? text with
    | none => exact .inl rfl
    | some label =>
        have short := within label found
        simp only [List.drop_append_of_le_length (Nat.le_of_lt short)]
        rcases ended (text.drop label.length) tail with same | ⟨missing, far⟩
        · exact .inl (by rw [same])
        · refine .inr ⟨by rw [missing]; rfl, ?_⟩
          intro given count result
          obtain ⟨length, here, same⟩ := Option.map_eq_some_iff.mp result
          cases same
          have further := far count here
          rw [List.length_drop] at further
          omega
  · right
    constructor
    · cases found : Label.ofText? text with
      | none => rfl
      | some label =>
          simp only [whole label found, List.drop_length, nil]
          rfl
    · intro label count result
      split at result
      · cases result
      · rename_i given found
        obtain ⟨length, here, same⟩ := Option.map_eq_some_iff.mp result
        cases same
        have long := beyond _ found
        have positive : 0 < skipped + count := by
          rcases ended [] ((text ++ tail).drop label.length) with same | ⟨_, far⟩
          · rw [List.nil_append, here, nil] at same
            cases same
          · exact far count here
        omega

theorem header?_unquoted {text : Text} (unquoted : text.head? ≠ some '\'') :
    header? text =
      (headed? lineBreak? text).map fun head => ⟨.heredoc, head.1, head.2⟩ := by
  rw [ModeStack.header?_of_unquoted unquoted, headed?]
  cases Label.ofText? text with
  | none => rfl
  | some label => simp only [Option.map_map]; rfl

theorem header?_quoted (text : Text) :
    header? ('\'' :: text) =
      (headed? quotedBreak? text).map fun head => ⟨.nowdoc, head.1, head.2⟩ := by
  rw [header?, headed?]
  cases Label.ofText? text with
  | none => rfl
  | some label =>
      simp only [Option.map_map]
      generalize text.drop label.length = behind
      unfold quotedBreak?
      split
      · rfl
      · rename_i unquoted
        split
        · rename_i rest
          exact (unquoted rest rfl).elim
        · rfl

theorem lineBreak?_within {text : Text} {count : Nat} (found : lineBreak? text = some count) :
    count ≤ text.length := by
  unfold lineBreak? at found
  split at found
  · cases found
    exact Nat.le_add_left 1 _
  · cases found
    exact Nat.le_add_left 2 _
  · cases found

theorem quotedBreak?_within {text : Text} {count : Nat} (found : quotedBreak? text = some count) :
    1 + count ≤ text.length := by
  unfold quotedBreak? at found
  split at found
  · have bound := lineBreak?_within found
    rw [List.length_cons]
    omega
  · cases found

theorem headed?_within {ending : Text → Option Nat} {skipped : Nat}
    (ended : ∀ {text : Text} {count : Nat}, ending text = some count →
      skipped + count ≤ text.length)
    {text : Text} {label : Label} {count : Nat}
    (found : headed? ending text = some (label, count)) :
    label.Proper ∧ label.length + (skipped + count) ≤ text.length := by
  unfold headed? at found
  split at found
  · cases found
  · rename_i given labelled
    obtain ⟨length, behind, same⟩ := Option.map_eq_some_iff.mp found
    cases same
    have bound := ended behind
    have fits := (Label.ofText?_plain labelled).1.1
    rw [List.length_drop] at bound
    exact ⟨Label.proper_of_ofText? labelled, by omega⟩

theorem header?_within {text : Text} {header : Header} (found : header? text = some header) :
    header.label.Proper ∧ header.length + header.lineBreak ≤ 3 + text.length := by
  by_cases quoted : text.head? = some '\''
  · obtain ⟨behind, rfl⟩ := List.head?_eq_some_iff.mp quoted
    rw [header?_quoted] at found
    obtain ⟨⟨label, count⟩, here, rfl⟩ := Option.map_eq_some_iff.mp found
    obtain ⟨proper, bound⟩ := headed?_within quotedBreak?_within here
    refine ⟨proper, ?_⟩
    simp only [Header.length, List.length_cons]
    omega
  · rw [header?_unquoted quoted] at found
    obtain ⟨⟨label, count⟩, here, rfl⟩ := Option.map_eq_some_iff.mp found
    have ended {text : Text} {count : Nat} (breaks : lineBreak? text = some count) :
        0 + count ≤ text.length := by
      rw [Nat.zero_add]
      exact lineBreak?_within breaks
    obtain ⟨proper, bound⟩ := headed?_within ended here
    refine ⟨proper, ?_⟩
    simp only [Header.length]
    omega

/-- A header is complete with its line break. -/
theorem header?_append (text tail : Text) :
    header? (text ++ tail) = header? text ∨
      header? text = none ∧ ∀ header, header? (text ++ tail) = some header →
        3 + text.length < header.length + header.lineBreak := by
  match text with
  | [] =>
      refine .inr ⟨rfl, ?_⟩
      intro header found
      have positive := header.label.length_pos
      rw [Header.length, List.length_nil]
      split <;> omega
  | first :: rest =>
      by_cases quoted : first = '\''
      · subst quoted
        rw [List.cons_append, header?_quoted, header?_quoted]
        rcases headed?_append 1 quotedBreak?_append rfl rest tail with
          same | ⟨missing, beyond⟩
        · exact .inl (by rw [same])
        · refine .inr ⟨by rw [missing]; rfl, ?_⟩
          intro header found
          obtain ⟨⟨label, count⟩, here, rfl⟩ := Option.map_eq_some_iff.mp found
          have far := beyond label count here
          simp only [Header.length, List.length_cons]
          omega
      · have unquoted (more : Text) : (first :: more).head? ≠ some '\'' := by simpa using quoted
        rw [List.cons_append, header?_unquoted (unquoted _), header?_unquoted (unquoted _)]
        rcases headed?_append 0 (by simpa using lineBreak?_append) rfl (first :: rest) tail with
          same | ⟨missing, beyond⟩
        · exact .inl (by rw [← List.cons_append, same])
        · refine .inr ⟨by rw [missing]; rfl, ?_⟩
          intro header found
          obtain ⟨⟨label, count⟩, here, rfl⟩ := Option.map_eq_some_iff.mp found
          have far := beyond label count here
          simp only [Header.length]
          omega

end DocString

end HackLexer
