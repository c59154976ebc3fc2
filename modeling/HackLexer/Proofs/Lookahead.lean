import HackLexer.Lexer.Scan
import HackLexer.Proofs.PlainCharacters
import Mathlib.Data.List.TakeWhile

/-!
# How far the matchers look

A matcher may look at the character behind what it matches, but it does not
depend on more: if what it matches in a text lies within a front part, it matches
the same in that part alone.  So cutting a text behind a match does not change
the match.  A line feed behind a text changes no match at all, for no match goes
over a line feed.
-/

namespace HackLexer

namespace Text

/-- A continuation behind which no match goes on: nothing, or a new line. -/
def Breaks (tail : Text) : Prop :=
  tail.head?.all (· == '\n')

theorem breaks_nil : Breaks [] := rfl

theorem breaks_feed (behind : Text) : Breaks ('\n' :: behind) := rfl

theorem Breaks.eq_feed {first : Char} {behind : Text} (breaks : Breaks (first :: behind)) :
    first = '\n' := by
  simpa [Breaks] using breaks

/-- A continuation that goes on with no name. -/
def Stops (tail : Text) : Prop :=
  tail.head?.any isAlphanumeric = false

theorem Breaks.stops {tail : Text} (breaks : tail.Breaks) : tail.Stops := by
  cases tail with
  | nil => rfl
  | cons first behind =>
      rw [breaks.eq_feed]
      rfl

/-- What goes over the end of a text takes in the character behind it. -/
theorem mem_take_of_beyond {text behind : Text} {first : Char} {count : Nat}
    (beyond : text.length < count) : first ∈ (text ++ first :: behind).take count := by
  obtain ⟨more, rfl⟩ := Nat.exists_eq_add_of_lt beyond
  rw [Nat.add_assoc, List.take_length_add_append, List.take_succ_cons]
  simp

/-- A plain match does not go over the line feed behind a text. -/
theorem Plain.le_length {text tail : Text} {count : Nat}
    (plain : Text.Plain (text ++ tail) count) (breaks : tail.Breaks) :
    count ≤ text.length := by
  cases tail with
  | nil =>
      have bound := plain.1
      rwa [List.append_nil] at bound
  | cons first behind =>
      rcases Nat.lt_or_ge text.length count with longer | within
      · have inLine := plain.2 first (mem_take_of_beyond longer)
        rw [breaks.eq_feed] at inLine
        exact absurd inLine (by decide)
      · exact within

theorem countWhile_nil (test : Char → Bool) : countWhile test [] = 0 := rfl

theorem countWhile_cons (test : Char → Bool) (first : Char) (rest : Text) :
    countWhile test (first :: rest) = if test first then countWhile test rest + 1 else 0 := by
  unfold countWhile
  rw [List.takeWhile_cons]
  split <;> rfl

theorem countWhile_le (test : Char → Bool) (text : Text) :
    countWhile test text ≤ text.length :=
  (List.takeWhile_prefix test).length_le

/-- A run of characters goes on behind a text only if all of the text belongs to
it. -/
theorem countWhile_append (test : Char → Bool) (text tail : Text) :
    countWhile test (text ++ tail) =
      if countWhile test text = text.length then text.length + countWhile test tail
      else countWhile test text := by
  induction text with
  | nil => simp [countWhile_nil]
  | cons first rest ih =>
      rw [List.cons_append, countWhile_cons, countWhile_cons, ih]
      cases passes : test first with
      | false => simp
      | true =>
          simp only [if_true, List.length_cons, Nat.add_right_cancel_iff]
          split <;> omega

theorem countWhile_cut {test : Char → Bool} {text tail : Text}
    (within : countWhile test (text ++ tail) ≤ text.length) :
    countWhile test text = countWhile test (text ++ tail) := by
  rw [countWhile_append] at within ⊢
  split
  · rename_i whole
    rw [if_pos whole] at within
    omega
  · rfl

theorem countWhile_of_beyond {test : Char → Bool} {text tail : Text}
    (beyond : text.length < countWhile test (text ++ tail)) :
    countWhile test text = text.length := by
  rw [countWhile_append] at beyond
  split at beyond
  · assumption
  · exact absurd (countWhile_le test text) (Nat.not_le_of_lt beyond)

theorem isPrefixOf_append_of_length_le {pattern text : Text} (tail : Text)
    (fits : pattern.length ≤ text.length) :
    pattern.isPrefixOf (text ++ tail) = pattern.isPrefixOf text := by
  rw [Bool.eq_iff_iff, List.isPrefixOf_iff_prefix, List.isPrefixOf_iff_prefix]
  constructor
  · intro starts
    exact List.prefix_of_prefix_length_le starts (List.prefix_append text tail) fits
  · intro starts
    exact starts.trans (List.prefix_append text tail)

end Text

/-- A matcher that finds the same in a text that is cut behind what it finds. -/
structure IsLocal {Found : Type} (length : Found → Nat) (matcher : Text → Option Found) :
    Prop where
  unmatched : ∀ {text tail : Text}, matcher (text ++ tail) = none → matcher text = none
  matched : ∀ {text tail : Text} {found : Found}, matcher (text ++ tail) = some found →
    length found ≤ text.length → matcher text = some found

/-- What a local matcher of plain characters finds in a continued text it finds in
the text alone, or else it goes over the end of the text. -/
theorem IsLocal.matched_or_beyond {Found : Type} {length : Found → Nat}
    {matcher : Text → Option Found} (isLocal : IsLocal length matcher)
    (plain : ∀ {text : Text} {found : Found}, matcher text = some found →
      text.Plain (length found))
    {text tail : Text} {found : Found} (result : matcher (text ++ tail) = some found) :
    matcher text = some found ∧ length found ≤ text.length ∨
      ¬ tail.Breaks ∧ tail ≠ [] ∧ text.length < length found := by
  rcases Nat.lt_or_ge text.length (length found) with beyond | fits
  · have unbroken : ¬ tail.Breaks := by
      intro breaks
      have short := (plain result).le_length breaks
      omega
    refine .inr ⟨unbroken, ?_, beyond⟩
    rintro rfl
    exact unbroken Text.breaks_nil
  · exact .inl ⟨isLocal.matched result fits, fits⟩

theorem markerAfter?_unmatched {marker text tail : Text}
    (missing : markerAfter? marker (text ++ tail) = none) :
    markerAfter? marker text = none := by
  simp only [markerAfter?, ite_eq_right_iff, reduceCtorEq, imp_false] at missing ⊢
  intro starts
  apply missing
  rw [List.isPrefixOf_iff_prefix] at starts ⊢
  rw [Text.countWhile_append]
  split
  · rename_i whole
    rw [whole, List.drop_length, List.prefix_nil] at starts
    rw [starts]
    exact List.nil_prefix
  · rw [List.drop_append_of_le_length (Text.countWhile_le isBlank text)]
    exact starts.trans (List.prefix_append _ tail)

theorem markerAfter?_matched {marker text tail : Text} {count : Nat}
    (found : markerAfter? marker (text ++ tail) = some count)
    (within : count ≤ 2 + text.length) : markerAfter? marker text = some count := by
  simp only [markerAfter?, Option.ite_none_right_eq_some, Option.some.injEq] at found ⊢
  obtain ⟨starts, rfl⟩ := found
  have blanks : Text.countWhile isBlank (text ++ tail) ≤ text.length := by omega
  have fits : marker.length ≤
      (text.drop (Text.countWhile isBlank (text ++ tail))).length := by
    rw [List.length_drop]
    omega
  rw [List.drop_append_of_le_length blanks,
    Text.isPrefixOf_append_of_length_le tail fits] at starts
  rw [Text.countWhile_cut blanks]
  exact ⟨starts, rfl⟩

/-- A comment opener with no marker behind it is no marker. -/
theorem two_le_of_marker? {text : Text} {kind : TokenKind} {count : Nat}
    (found : marker? text = some (kind, count)) : 2 ≤ count := by
  unfold marker? at found
  split at found
  · obtain ⟨length, here, same⟩ := Option.map_eq_some_iff.mp found
    cases same
    simp only [markerAfter?, Option.ite_none_right_eq_some, Option.some.injEq] at here
    omega
  · obtain ⟨length, here, same⟩ := Option.map_eq_some_iff.mp found
    cases same
    simp only [markerAfter?, Option.ite_none_right_eq_some, Option.some.injEq] at here
    omega
  · cases found

theorem marker?_of_not_opener {first second : Char} {behind : Text}
    (other : ¬ (first = '/' ∧ (second = '/' ∨ second = '*'))) :
    marker? (first :: second :: behind) = none := by
  unfold marker?
  split
  · rename_i same
    cases same
    exact absurd ⟨rfl, .inl rfl⟩ other
  · rename_i same
    cases same
    exact absurd ⟨rfl, .inr rfl⟩ other
  · rfl

theorem marker?_local : IsLocal Prod.snd marker? where
  unmatched {text tail} missing := by
    match text with
    | [] => rfl
    | [first] => simp [marker?]
    | first :: second :: behind =>
        by_cases opener : first = '/' ∧ (second = '/' ∨ second = '*')
        · obtain ⟨rfl, rfl | rfl⟩ := opener
          · simp only [List.cons_append, marker?, Option.map_eq_none_iff] at missing ⊢
            exact markerAfter?_unmatched missing
          · simp only [List.cons_append, marker?, Option.map_eq_none_iff] at missing ⊢
            exact markerAfter?_unmatched missing
        · exact marker?_of_not_opener opener
  matched {text tail found} result within := by
    have long := two_le_of_marker? result
    match text with
    | [] => exact absurd (Nat.le_trans long within) (by decide)
    | [first] => exact absurd (Nat.le_trans long within) (Nat.not_succ_le_self 1)
    | first :: second :: behind =>
        simp only [List.length_cons] at within
        rw [List.cons_append, List.cons_append] at result
        by_cases opener : first = '/' ∧ (second = '/' ∨ second = '*')
        · obtain ⟨rfl, rfl | rfl⟩ := opener
          · simp only [marker?, Option.map_eq_some_iff] at result ⊢
            obtain ⟨count, here, rfl⟩ := result
            exact ⟨count, markerAfter?_matched here (by omega), rfl⟩
          · simp only [marker?, Option.map_eq_some_iff] at result ⊢
            obtain ⟨count, here, rfl⟩ := result
            exact ⟨count, markerAfter?_matched here (by omega), rfl⟩
        · rw [marker?_of_not_opener opener] at result
          cases result

namespace Number

theorem digits_cut {text tail : Text} (within : digits (text ++ tail) ≤ text.length) :
    digits text = digits (text ++ tail) :=
  Text.countWhile_cut within

theorem sign_cons_append (first : Char) (rest tail : Text) :
    sign (first :: rest ++ tail) = sign (first :: rest) := by
  unfold sign
  split <;> simp_all

theorem sign_le_one (text : Text) : sign text ≤ 1 := by
  unfold sign
  split <;> omega

theorem exponent_mark {mark : Char} {rest : Text} (isMark : mark == 'e' || mark == 'E') :
    exponent (mark :: rest) =
      if digits (rest.drop (sign rest)) = 0 then 0
      else 1 + sign rest + digits (rest.drop (sign rest)) := by
  rw [exponent, if_pos isMark]
  split
  · rename_i none
    rw [if_pos none]
  · rename_i count some
    rw [some, if_neg (Nat.succ_ne_zero count)]

theorem exponent_cut {text tail : Text} (within : exponent (text ++ tail) ≤ text.length) :
    exponent text = exponent (text ++ tail) := by
  match text with
  | [] => exact (Nat.le_zero.mp within).symm
  | mark :: rest =>
      rw [List.cons_append] at within ⊢
      by_cases isMark : (mark == 'e' || mark == 'E') = true
      · rw [exponent_mark isMark] at within ⊢
        rw [exponent_mark isMark]
        cases rest with
        | nil =>
            split at within
            · rename_i none
              rw [List.nil_append] at none
              rw [List.nil_append, if_pos none]
              rfl
            · rw [List.nil_append, List.length_singleton] at *
              omega
        | cons first rest =>
            have signed := sign_le_one (first :: rest)
            have dropped : (first :: rest ++ tail).drop (sign (first :: rest)) =
                (first :: rest).drop (sign (first :: rest)) ++ tail := by
              apply List.drop_append_of_le_length
              rw [List.length_cons]
              omega
            rw [sign_cons_append, dropped] at within ⊢
            have cut : digits ((first :: rest).drop (sign (first :: rest))) =
                digits ((first :: rest).drop (sign (first :: rest)) ++ tail) := by
              apply digits_cut
              rw [List.length_drop]
              simp only [List.length_cons] at within ⊢
              split at within <;> omega
            rw [cut]
      · rw [exponent, if_neg isMark, exponent, if_neg isMark]

theorem radix_cut {test : Char → Bool} {rest tail : Text}
    (within : (match Text.countWhile test (rest ++ tail) with
      | 0 => 1
      | count + 1 => 2 + (count + 1) : Nat) ≤ rest.length + 2) :
    Text.countWhile test rest = Text.countWhile test (rest ++ tail) := by
  apply Text.countWhile_cut
  split at within <;> omega

theorem integer_octal {rest : Text} (notHex : rest.head? ≠ some 'x')
    (notBinary : rest.head? ≠ some 'b') :
    integer ('0' :: rest) = 1 + Text.countWhile isOctalDigit rest := by
  unfold integer
  split <;> simp_all

theorem integer_zero_pos (rest : Text) : 0 < integer ('0' :: rest) := by
  unfold integer
  split
  · split <;> omega
  · split <;> omega
  · omega
  · rename_i noZero
    exact absurd rfl (noZero rest)

theorem integer_decimal {first : Char} {rest : Text} (notZero : first ≠ '0') :
    integer (first :: rest) = digits (first :: rest) := by
  unfold integer
  split <;> simp_all

theorem integer_cut {text tail : Text} (within : integer (text ++ tail) ≤ text.length) :
    integer text = integer (text ++ tail) := by
  match text with
  | [] => exact (Nat.le_zero.mp within).symm
  | first :: rest =>
      by_cases zero : first = '0'
      · subst zero
        match rest with
        | [] =>
            have positive := integer_zero_pos tail
            exact Nat.le_antisymm positive within
        | second :: rest =>
            by_cases hex : second = 'x'
            · subst hex
              simp only [List.cons_append, integer] at within ⊢
              rw [radix_cut within]
            · by_cases binary : second = 'b'
              · subst binary
                simp only [List.cons_append, integer] at within ⊢
                rw [radix_cut within]
              · have plain := @integer_octal (second :: rest) (by simpa using hex)
                  (by simpa using binary)
                have longer := @integer_octal (second :: rest ++ tail) (by simpa using hex)
                  (by simpa using binary)
                rw [List.cons_append, longer, List.length_cons] at within
                have cut := @Text.countWhile_cut isOctalDigit (second :: rest) tail (by omega)
                rw [List.cons_append, longer, plain, cut]
      · rw [List.cons_append, integer_decimal zero] at within ⊢
        rw [integer_decimal zero]
        exact digits_cut within

theorem fraction_cut {whole : Nat} {text tail : Text}
    (within : fraction whole (text ++ tail) ≤ text.length) :
    fraction whole text = fraction whole (text ++ tail) := by
  match text with
  | [] => exact (Nat.le_zero.mp within).symm
  | first :: rest =>
      by_cases point : first = '.'
      · subst point
        simp only [List.cons_append, fraction, List.length_cons] at within ⊢
        have cut : digits rest = digits (rest ++ tail) := by
          apply digits_cut
          split at within <;> omega
        rw [cut]
      · unfold fraction
        split <;> simp_all

/-- A float by the lengths of its parts: the digits, the point with what follows
it, and the exponent. -/
theorem float_eq {text : Text} {whole point power : Nat} (digited : digits text = whole)
    (pointed : fraction whole (text.drop whole) = point)
    (powered : exponent (text.drop (whole + point)) = power) :
    float text = if point + power = 0 ∨ whole + point = 0 then 0 else whole + point + power := by
  subst digited pointed powered
  simp only [float]
  split
  · rename_i none
    rw [if_pos (.inr none)]
  · split
    · rename_i noPower
      rw [noPower]
      split
      · rename_i noPoint
        rw [if_pos (.inl noPoint)]
      · rw [if_neg (by omega)]
        rfl
    · rename_i count hasPower
      rw [hasPower, if_neg (by omega)]

theorem float_of_digits {text : Text} (only : digits text = text.length) : float text = 0 := by
  rw [float_eq only rfl rfl, List.drop_length]
  simp [fraction, exponent]

theorem float_cut {text tail : Text} (within : float (text ++ tail) ≤ text.length) :
    float text = float (text ++ tail) := by
  rw [float_eq rfl rfl rfl] at within
  rcases Nat.lt_or_ge text.length (digits (text ++ tail)) with beyond | inside
  · rw [float_of_digits (Text.countWhile_of_beyond beyond), float_eq rfl rfl rfl]
    split at within
    · rename_i none
      rw [if_pos none]
    · omega
  · have dropped : (text ++ tail).drop (digits (text ++ tail)) =
        text.drop (digits (text ++ tail)) ++ tail :=
      List.drop_append_of_le_length inside
    generalize whole : digits (text ++ tail) = front at *
    rw [dropped] at within
    have bound : fraction front (text.drop front ++ tail) ≤ (text.drop front).length := by
      rw [List.length_drop]
      split at within <;> omega
    have pointed := fraction_cut bound
    rw [List.length_drop] at bound
    have digited : digits text = front := (digits_cut (whole ▸ inside)).trans whole
    rw [float_eq digited pointed rfl, float_eq whole (by rw [dropped]) rfl]
    by_cases nothing : front + fraction front (text.drop front ++ tail) = 0
    · rw [if_pos (.inr nothing), if_pos (.inr nothing)]
    · have short : front + fraction front (text.drop front ++ tail) ≤ text.length := by
        omega
      rw [List.drop_append_of_le_length short] at within ⊢
      rw [← exponent_cut (by
        rw [List.length_drop]
        split at within <;> omega)]

end Number

theorem number?_local : IsLocal Prod.snd number? where
  unmatched {text tail} missing := by
    unfold number? at missing
    split at missing
    · cases missing
    · split at missing
      · cases missing
      · have whole := @Number.integer_cut text tail (by omega)
        have broken := @Number.float_cut text tail (by omega)
        rw [number?, whole, broken, if_neg (by omega), if_neg (by omega)]
  matched {text tail found} result within := by
    unfold number? at result
    split at result
    · cases result
      have broken := Number.float_cut within
      have whole := @Number.integer_cut text tail (by omega)
      rw [number?, whole, broken, if_pos (by assumption)]
    · split at result
      · cases result
        have whole := Number.integer_cut within
        have broken := @Number.float_cut text tail (by omega)
        rw [number?, whole, broken, if_neg (by assumption), if_pos (by assumption)]
      · cases result

theorem number?_of_no_digit {first : Char} (rest : Text) (noDigit : first.isDigit = false)
    (noPoint : first ≠ '.') : number? (first :: rest) = none := by
  have none : Number.digits (first :: rest) = 0 := by
    rw [Number.digits, Text.countWhile_cons, noDigit]
    rfl
  have noZero : first ≠ '0' := by
    rintro rfl
    cases noDigit
  have integer : Number.integer (first :: rest) = 0 := by
    rw [Number.integer_decimal noZero, none]
  have fraction : Number.fraction 0 (first :: rest) = 0 := by
    unfold Number.fraction
    split
    · rename_i same
      exact absurd (List.cons.inj same).1 noPoint
    · rfl
  have float : Number.float (first :: rest) = 0 := by
    simp [Number.float, none, fraction]
  simp [number?, integer, float]

namespace Text

/-- Trimming goes on in front of the last part of a text only if nothing of that
part is left. -/
theorem trimEnd_append (test : Char → Bool) (text tail : Text) :
    trimEnd test (text ++ tail) =
      if trimEnd test tail = [] then trimEnd test text else text ++ trimEnd test tail := by
  unfold trimEnd
  rw [List.reverse_append, List.dropWhile_append]
  cases kept : tail.reverse.dropWhile test with
  | nil => simp
  | cons last front => simp

theorem trimEnd_split (test : Char → Bool) (text : Text) :
    ∃ removed, text = trimEnd test text ++ removed ∧
      (∀ character ∈ removed, test character = true) ∧
      ∀ last ∈ (trimEnd test text).getLast?, test last = false := by
  refine ⟨(text.reverse.takeWhile test).reverse, ?_, ?_, ?_⟩
  · rw [trimEnd, ← List.reverse_append, List.takeWhile_append_dropWhile, List.reverse_reverse]
  · intro character member
    exact List.all_eq_true.mp List.all_takeWhile character (List.mem_reverse.mp member)
  · intro last member
    have failing := List.head?_dropWhile_not test text.reverse
    rw [trimEnd, List.getLast?_reverse] at member
    rwa [Option.mem_def.mp member] at failing

theorem trimEnd_of_split {test : Char → Bool} {text removed : Text}
    (passes : ∀ character ∈ removed, test character = true)
    (kept : ∀ last ∈ text.getLast?, test last = false) :
    trimEnd test (text ++ removed) = text := by
  have none : trimEnd test removed = [] := by
    rw [trimEnd, List.reverse_eq_nil_iff, List.dropWhile_eq_nil_iff]
    intro character member
    exact passes character (List.mem_reverse.mp member)
  rw [trimEnd_append, if_pos none, trimEnd]
  cases reversed : text.reverse with
  | nil => exact (List.reverse_eq_nil_iff.mp reversed).symm ▸ rfl
  | cons last front =>
      have stays := kept last (by rw [List.getLast?_eq_head?_reverse, reversed]; rfl)
      rw [List.dropWhile_cons_of_neg (by rw [stays]; decide), ← reversed, List.reverse_reverse]

theorem trimEnd_of_kept {test : Char → Bool} {text : Text}
    (kept : ∀ last ∈ text.getLast?, test last = false) : trimEnd test text = text := by
  have removed : ∀ character ∈ ([] : Text), test character = true := by
    intro character member
    cases member
  have whole := trimEnd_of_split removed kept
  rwa [List.append_nil] at whole

end Text

namespace Word

theorem atom_cut {text tail : Text} (within : atom (text ++ tail) ≤ text.length) :
    atom text = atom (text ++ tail) := by
  match text with
  | [] => exact (Nat.le_zero.mp within).symm
  | first :: rest =>
      simp only [List.cons_append, atom, List.length_cons] at within ⊢
      by_cases lower : first.isLower
      · rw [if_pos lower, List.takeWhile_append] at within ⊢
        rw [if_pos lower]
        split
        · rename_i all
          rw [if_pos all, Text.trimEnd_append] at within
          have whole : rest.takeWhile isHyphenated = rest :=
            (List.takeWhile_prefix isHyphenated).eq_of_length all
          rw [Text.trimEnd_append, whole]
          split
          · rfl
          · rename_i kept
            have positive := List.length_pos_iff.mpr kept
            rw [if_neg kept, List.length_append] at within
            omega
        · rfl
      · rw [if_neg lower] at within ⊢
        rw [if_neg lower]
        by_cases letter : isLetter first
        · rw [if_pos letter] at within ⊢
          have cut := @Text.countWhile_cut isAlphanumeric rest tail (by omega)
          rw [if_pos letter, cut]
        · rw [if_neg letter, if_neg letter]

theorem length_eq (text : Text) :
    length text =
      if atom (text.drop (separators text)) = 0 then 0
      else separators text + atom (text.drop (separators text)) +
        length (text.drop (separators text + atom (text.drop (separators text)))) := by
  rw [length]
  split
  · rename_i none
    rw [if_pos none]
  · rename_i count some
    rw [some, if_neg (Nat.succ_ne_zero count)]

theorem length_cut {text tail : Text} (within : length (text ++ tail) ≤ text.length) :
    length text = length (text ++ tail) := by
  induction size : text.length using Nat.strongRecOn generalizing text with
  | ind size ih =>
      rw [length_eq] at within ⊢
      rw [length_eq (text ++ tail)]
      rcases Nat.lt_or_ge text.length (separators (text ++ tail)) with beyond | inside
      · have only : separators text = text.length := Text.countWhile_of_beyond beyond
        rw [only, List.drop_length, if_pos atom_nil]
        split at within
        · rename_i none
          rw [if_pos none]
        · omega
      · have separated : separators text = separators (text ++ tail) :=
          Text.countWhile_cut inside
        generalize separators (text ++ tail) = front at *
        subst separated
        rw [List.drop_append_of_le_length inside] at within ⊢
        have cut : atom (text.drop (separators text)) =
            atom (text.drop (separators text) ++ tail) := by
          apply atom_cut
          rw [List.length_drop]
          split at within <;> omega
        rw [← cut] at within ⊢
        split
        · rfl
        · rename_i some
          rw [if_neg some] at within
          rw [List.drop_append_of_le_length (by omega)] at within ⊢
          rw [ih _ _ (by rw [List.length_drop]; omega) rfl]
          rw [List.length_drop]
          omega

end Word

theorem word?_plain {text : Text} {kind : TokenKind} {count : Nat}
    (found : word? text = some (kind, count)) : text.Plain count := by
  have plain := Word.length_plain text
  unfold word? at found
  split at found
  · cases found
  · rename_i length
    rw [length] at plain
    split at found <;> cases found <;> exact plain

theorem word?_local : IsLocal Prod.snd word? where
  unmatched {text tail} missing := by
    unfold word? at missing ⊢
    split at missing
    · rename_i none
      have cut := @Word.length_cut text tail (by omega)
      rw [cut, none]
    · split at missing <;> cases missing
  matched {text tail found} result within := by
    unfold word? at result ⊢
    split at result
    · cases result
    · rename_i count spelled
      have bound : count + 1 ≤ text.length := by
        split at result <;> cases result <;> exact within
      rw [List.take_append_of_le_length bound] at result
      rw [Word.length_cut (by omega : Word.length (text ++ tail) ≤ text.length), spelled]
      exact result

theorem dollar?_of_ne {first : Char} {rest : Text} (other : first ≠ '$') :
    dollar? (first :: rest) = none := by
  unfold dollar?
  split
  · rename_i same
    cases same
    exact absurd rfl other
  · rfl

theorem dollar?_local : IsLocal Prod.snd dollar? where
  unmatched {text tail} missing := by
    match text with
    | [] => rfl
    | first :: rest =>
        by_cases dollar : first = '$'
        · subst dollar
          simp only [List.cons_append, dollar?] at missing
          split at missing
          · cases missing
          · split at missing <;> cases missing
        · exact dollar?_of_ne dollar
  matched {text tail found} result within := by
    match text with
    | [] => exact absurd within (Nat.not_le_of_lt (dollar?_positive result))
    | first :: rest =>
        by_cases dollar : first = '$'
        · subst dollar
          match rest with
          | [] =>
              simp only [List.cons_append, List.nil_append, dollar?] at result ⊢
              split at result
              · exact result
              · split at result
                · cases result
                  exact absurd within (by simp; omega)
                · exact result
          | first :: rest =>
              simp only [List.cons_append, dollar?] at result ⊢
              split
              · rename_i letter
                rw [if_pos letter] at result
                cases result
                simp only [List.length_cons] at within
                have cut := @Text.countWhile_cut isAlphanumeric rest tail (by omega)
                rw [cut]
              · rename_i noLetter
                rwa [if_neg noLetter] at result
        · rw [List.cons_append, dollar?_of_ne dollar] at result
          cases result

namespace MarkupName

theorem tail_colon_next (next : Char) (rest : Text) :
    tail (':' :: next :: rest) = if isLetter next || next == '-' then 2 + tail rest else 0 := rfl

theorem tail_lone_colon : tail [':'] = 0 := rfl

theorem tail_cons {first : Char} {rest : Text} (noColon : first ≠ ':') :
    tail (first :: rest) = if isAlphanumeric first || first == '-' then 1 + tail rest else 0 := by
  rw [tail]
  intro next behind same
  exact absurd same noColon

theorem tail_cut {text behind : Text} (within : tail (text ++ behind) ≤ text.length) :
    tail text = tail (text ++ behind) := by
  induction text using tail.induct with
  | case1 => exact (Nat.le_zero.mp within).symm
  | case2 next rest named ih =>
      simp only [List.cons_append, tail_colon_next, List.length_cons, if_pos named] at within ⊢
      rw [ih (by omega)]
  | case3 next rest unnamed =>
      simp only [List.cons_append, tail_colon_next, if_neg unnamed]
  | case4 first rest _ named ih =>
      have noColon : first ≠ ':' := by
        rintro rfl
        exact absurd named (by decide)
      simp only [List.cons_append, tail_cons noColon, if_pos named, List.length_cons] at within ⊢
      rw [ih (by omega)]
  | case5 first rest single unnamed =>
      by_cases colon : first = ':'
      · subst colon
        cases rest with
        | cons next rest => exact (single next rest rfl rfl).elim
        | nil =>
            cases behind with
            | nil => rfl
            | cons next behind =>
                simp only [List.singleton_append, tail_colon_next, List.length_singleton]
                  at within ⊢
                rw [tail_lone_colon]
                split at within
                · omega
                · rename_i other
                  rw [if_neg other]
      · simp only [List.cons_append, tail_cons colon, if_neg unnamed]

theorem name_cut {text behind : Text} (within : name (text ++ behind) ≤ text.length) :
    name text = name (text ++ behind) := by
  match text with
  | [] => exact (Nat.le_zero.mp within).symm
  | first :: rest =>
      simp only [List.cons_append, name, List.length_cons] at within ⊢
      split
      · rename_i letter
        rw [if_pos letter] at within
        have cut := @tail_cut rest behind (by omega)
        rw [cut]
      · rfl

end MarkupName

theorem markupName?_percent (rest : Text) :
    markupName? ('<' :: '%' :: rest) =
      if MarkupName.name rest = 0 then none else some (2 + MarkupName.name rest) := by
  rw [markupName?]
  split
  · rename_i none
    rw [if_pos none]
  · rename_i count named
    rw [named, if_neg (Nat.succ_ne_zero count)]

theorem markupName?_lt {rest : Text} (noPercent : rest.head? ≠ some '%') :
    markupName? ('<' :: rest) =
      if MarkupName.name rest = 0 then none else some (1 + MarkupName.name rest) := by
  rw [markupName?]
  · split
    · rename_i none
      rw [if_pos none]
    · rename_i count named
      rw [named, if_neg (Nat.succ_ne_zero count)]
  · rintro behind rfl
    exact noPercent rfl

theorem markupName?_of_ne {first : Char} {rest : Text} (other : first ≠ '<') :
    markupName? (first :: rest) = none := by
  rw [markupName?]
  · intro behind same
    exact other (List.cons.inj same).1
  · intro behind same
    exact other (List.cons.inj same).1

theorem two_le_of_markupName? {text : Text} {count : Nat}
    (found : markupName? text = some count) : 2 ≤ count := by
  unfold markupName? at found
  split at found
  · split at found <;> cases found
    omega
  · split at found <;> cases found
    omega
  · cases found

theorem markupName?_local : IsLocal id markupName? where
  unmatched {text tail} missing := by
    match text with
    | [] => rfl
    | [first] =>
        by_cases lt : first = '<'
        · rw [lt]
          rfl
        · exact markupName?_of_ne lt
    | first :: second :: rest =>
        by_cases lt : first = '<'
        · subst lt
          by_cases percent : second = '%'
          · subst percent
            simp only [List.cons_append, markupName?_percent, ite_eq_left_iff, reduceCtorEq,
              imp_false, Decidable.not_not] at missing ⊢
            exact (MarkupName.name_cut (by omega)).trans missing
          · rw [List.cons_append, markupName?_lt (by simpa using percent)] at missing
            rw [markupName?_lt (by simpa using percent)]
            simp only [ite_eq_left_iff, reduceCtorEq, imp_false, Decidable.not_not] at missing ⊢
            exact (MarkupName.name_cut (by omega)).trans missing
        · exact markupName?_of_ne lt
  matched {text tail found} result within := by
    have long := two_le_of_markupName? result
    match text with
    | [] => exact absurd (Nat.le_trans long within) (by decide)
    | [first] => exact absurd (Nat.le_trans long within) (Nat.not_succ_le_self 1)
    | first :: second :: rest =>
        simp only [List.length_cons, id] at within
        by_cases lt : first = '<'
        · subst lt
          by_cases percent : second = '%'
          · subst percent
            simp only [List.cons_append, markupName?_percent, Option.ite_none_left_eq_some,
              Option.some.injEq] at result ⊢
            have cut := @MarkupName.name_cut rest tail (by omega)
            rwa [cut]
          · rw [List.cons_append, markupName?_lt (by simpa using percent)] at result
            rw [markupName?_lt (by simpa using percent)]
            simp only [Option.ite_none_left_eq_some, Option.some.injEq] at result ⊢
            have cut := @MarkupName.name_cut (second :: rest) tail
              (by rw [List.length_cons]; omega)
            rwa [cut]
        · rw [List.cons_append, markupName?_of_ne lt] at result
          cases result

theorem punctuation?_local : IsLocal Prod.snd punctuation? where
  unmatched {text tail} missing := by
    rw [punctuation?, Option.map_eq_none_iff, List.find?_eq_none] at missing ⊢
    intro entry member starts
    apply missing entry member
    rw [List.isPrefixOf_iff_prefix] at starts ⊢
    exact starts.trans (List.prefix_append text tail)
  matched {text tail found} result within := by
    obtain ⟨entry, first, rfl⟩ := Option.map_eq_some_iff.mp result
    rw [punctuation?, Option.map_eq_some_iff]
    refine ⟨entry, ?_, rfl⟩
    rw [List.find?_eq_some_iff_append] at first ⊢
    obtain ⟨starts, before, behind, table, earlier⟩ := first
    refine ⟨?_, before, behind, table, ?_⟩
    · rwa [Text.isPrefixOf_append_of_length_le tail within] at starts
    · intro other member
      have never := earlier other member
      rw [Bool.not_eq_true', ← Bool.not_eq_true, List.isPrefixOf_iff_prefix] at never ⊢
      exact fun starts => never (starts.trans (List.prefix_append text tail))

end HackLexer
