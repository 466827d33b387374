import Classlet.Json.Pretty
import Classlet.Proofs.Json.Grammar

/-!
# What written documents denote

The written form of a document is a JSON text, and by the grammar it denotes the
document and nothing else.  That no other reading exists depends on what comes behind a
part: a number ends where a character stands that no number holds, and a gap ends
where no blank stands.
-/

namespace Classlet.Json

open Grammar

/-! ## Documents as values -/

mutual

/-- A document as a JSON value. -/
def value : Json → Value
  | text content => .text content
  | number content => .number content
  | list items => .list (values items)
  | record fields => .record (members fields)

def values : List Json → List Value
  | [] => []
  | item :: rest => item.value :: values rest

def members : List (String × Json) → List (String × Value)
  | [] => []
  | (name, content) :: rest => (name, content.value) :: members rest

end

theorem values_eq_map (items : List Json) : values items = items.map value := by
  induction items with
  | nil => rfl
  | cons item rest ih => simp [values, ih]

/-! ## Gaps -/

theorem gap_of_blanks {gap : List Char} (h : ∀ char ∈ gap, char ∈ blanks)
    (text : List Char) :
    Gap (gap ++ text) text := by
  induction gap with
  | nil => exact .none
  | cons char gap ih =>
      rw [List.forall_mem_cons] at h
      exact .more h.1 (ih h.2)

theorem newLine_blank (level : Nat) : ∀ char ∈ newLine level, char ∈ blanks := by
  simp [newLine, blanks, List.mem_replicate]

def NoBlank (text : List Char) : Prop :=
  ∀ char ∈ text.head?, char ∉ blanks

/-- A gap up to a character that is no blank takes all blanks in front of it. -/
theorem gap_unique {text first second : List Char} (hfirst : Gap text first)
    (hsecond : Gap text second) (hnone : NoBlank first) (hnone' : NoBlank second) :
    first = second := by
  induction hfirst with
  | none =>
      cases hsecond with
      | none => rfl
      | more hchar _ => exact absurd hchar (hnone _ rfl)
  | more hchar _ ih =>
      cases hsecond with
      | none => exact absurd hchar (hnone' _ rfl)
      | more _ hsecond => exact ih hsecond hnone

/-! ## Strings -/

theorem hexValue?_hexDigit : ∀ digit < 16, hexValue? (hexDigit digit) = some digit := by
  decide

theorem mem_shortEscapes_of_shortEscape? {char letter : Char}
    (h : shortEscape? char = some letter) : (letter, char) ∈ shortEscapes := by
  unfold shortEscape? at h
  split at h <;> cases h <;> decide

theorem shortEscapes_unique :
    ∀ first ∈ shortEscapes, ∀ second ∈ shortEscapes, first.1 = second.1 → first.2 = second.2 := by
  decide

theorem letter_ne_u {letter char : Char} (h : (letter, char) ∈ shortEscapes) :
    letter ≠ 'u' := by
  rintro rfl
  simp [shortEscapes] at h

theorem plain_of_shortEscape?_none {char : Char} (h : shortEscape? char = none) :
    char ≠ '"' ∧ char ≠ '\\' := by
  constructor <;> rintro rfl <;> cases h

theorem codeUnit_control {code : Nat} (hcode : code < 0x20) (rest : List Char) :
    CodeUnit ('0' :: '0' :: hexDigit (code / 16) :: hexDigit (code % 16) :: rest) code rest := by
  have hzero : hexValue? '0' = some 0 := rfl
  have hhigh := hexValue?_hexDigit (code / 16) (by omega)
  have hlow := hexValue?_hexDigit (code % 16) (by omega)
  have hvalue : ((0 * 16 + 0) * 16 + code / 16) * 16 + code % 16 = code := by omega
  have hunit : CodeUnit ('0' :: '0' :: hexDigit (code / 16) :: hexDigit (code % 16) :: rest)
      (((0 * 16 + 0) * 16 + code / 16) * 16 + code % 16) rest := .intro hzero hzero hhigh hlow
  rwa [hvalue] at hunit

theorem codeUnit_unique {text rest other : List Char} {unit code : Nat}
    (hfirst : CodeUnit text unit rest) (hsecond : CodeUnit text code other) :
    unit = code ∧ rest = other := by
  cases hfirst with
  | intro ha hb hc hd =>
      cases hsecond with
      | intro ha' hb' hc' hd' =>
          rw [ha, Option.some.injEq] at ha'
          rw [hb, Option.some.injEq] at hb'
          rw [hc, Option.some.injEq] at hc'
          rw [hd, Option.some.injEq] at hd'
          subst ha' hb' hc' hd'
          exact ⟨rfl, rfl⟩

theorem character_escape (char : Char) (rest : List Char) :
    Character (escape char ++ rest) char rest := by
  unfold escape
  split
  · rename_i letter hletter
    exact .short (mem_shortEscapes_of_shortEscape? hletter)
  · rename_i hnone
    obtain ⟨hquote, hbackslash⟩ := plain_of_shortEscape?_none hnone
    split
    · rename_i hcontrol
      exact .unit (codeUnit_control hcontrol rest)
    · rename_i hcontrol
      exact .plain hquote hbackslash (Nat.le_of_not_lt hcontrol)

/-- An escaped character has no other reading. -/
theorem eq_of_character_escape {char found : Char} {text rest : List Char}
    (h : Character (escape char ++ text) found rest) : found = char ∧ rest = text := by
  unfold escape at h
  split at h
  · rename_i letter hletter
    have hmem := mem_shortEscapes_of_shortEscape? hletter
    cases h with
    | plain _ hbackslash _ => exact absurd rfl hbackslash
    | short hfound => exact ⟨shortEscapes_unique _ hfound _ hmem rfl, rfl⟩
    | unit _ => exact absurd rfl (letter_ne_u hmem)
    | pair _ _ _ _ _ => exact absurd rfl (letter_ne_u hmem)
  · rename_i hnone
    obtain ⟨hquote, hbackslash⟩ := plain_of_shortEscape?_none hnone
    split at h
    · rename_i hcontrol
      have hunit := codeUnit_control hcontrol text
      cases h with
      | plain _ hnever _ => exact absurd rfl hnever
      | short hfound => exact absurd rfl (letter_ne_u hfound)
      | unit hfound =>
          obtain ⟨hcode, hrest⟩ := codeUnit_unique hfound hunit
          exact ⟨Char.toNat_inj.mp hcode, hrest⟩
      | pair hhigh _ hrange _ _ =>
          obtain ⟨hcode, -⟩ := codeUnit_unique hhigh hunit
          omega
    · cases h with
      | plain _ _ _ => exact ⟨rfl, rfl⟩
      | short _ => exact absurd rfl hbackslash
      | unit _ => exact absurd rfl hbackslash
      | pair _ _ _ _ _ => exact absurd rfl hbackslash

/-- At the closing quote a string has no further character. -/
theorem not_character_quote {found : Char} {text rest : List Char}
    (h : Character ('"' :: text) found rest) : False := by
  cases h with
  | plain hquote _ _ => exact hquote rfl

theorem characters_escape (chars rest : List Char) :
    Characters (chars.flatMap escape ++ '"' :: rest) chars ('"' :: rest) := by
  induction chars with
  | nil => exact .none
  | cons char chars ih =>
      rw [List.flatMap_cons, List.append_assoc]
      exact .more (character_escape char _) ih

theorem eq_of_characters_escape {chars found text rest : List Char}
    (h : Characters (chars.flatMap escape ++ '"' :: text) found ('"' :: rest)) :
    found = chars ∧ rest = text := by
  induction chars generalizing found with
  | nil =>
      cases h with
      | none => exact ⟨rfl, rfl⟩
      | more hchar _ => exact (not_character_quote hchar).elim
  | cons char chars ih =>
      rw [List.flatMap_cons, List.append_assoc] at h
      generalize hall : escape char ++ (chars.flatMap escape ++ '"' :: text) = all at h
      cases h with
      | none =>
          have hquote : Character ('"' :: rest) char (chars.flatMap escape ++ '"' :: text) :=
            hall ▸ character_escape char _
          exact (not_character_quote hquote).elim
      | more hchar hmore =>
          subst hall
          obtain ⟨rfl, rfl⟩ := eq_of_character_escape hchar
          obtain ⟨rfl, rfl⟩ := ih hmore
          exact ⟨rfl, rfl⟩

theorem quoted_writeText (content : String) (rest : List Char) :
    Quoted (writeText content ++ rest) content rest := by
  have hquoted := Quoted.intro (characters_escape content.toList rest)
  rw [String.ofList_toList] at hquoted
  simpa [writeText] using hquoted

theorem eq_of_quoted_writeText {content found : String} {text rest : List Char}
    (h : Quoted (writeText content ++ text) found rest) : found = content ∧ rest = text := by
  simp only [writeText, List.cons_append, List.append_assoc] at h
  cases h with
  | intro hchars =>
      obtain ⟨rfl, rfl⟩ := eq_of_characters_escape hchars
      exact ⟨String.ofList_toList, rfl⟩

/-! ## Numbers -/

/-- The marks that go on with a list or a record, or close it. -/
def marks : List Char := [',', ']', '\x7d']

/-- What may stand behind a value: the end of the text, a gap or a mark. -/
def Stops (text : List Char) : Prop :=
  ∀ char ∈ text.head?, char ∈ blanks ++ marks

theorem not_digit_of_stop :
    ∀ char ∈ blanks ++ marks, char.isDigit = false ∧ char ≠ '.' ∧ char ∉ ['e', 'E'] := by
  simp [blanks, marks]

theorem eq_of_digits_append {first second text rest : List Char}
    (hfirst : ∀ char ∈ first, char.isDigit = true) (hsecond : ∀ char ∈ second, char.isDigit = true)
    (htext : ∀ char ∈ text.head?, char.isDigit = false)
    (hrest : ∀ char ∈ rest.head?, char.isDigit = false) (h : first ++ text = second ++ rest) :
    first = second ∧ text = rest := by
  have htake : ∀ {digits more : List Char}, (∀ char ∈ digits, char.isDigit = true) →
      (∀ char ∈ more.head?, char.isDigit = false) →
      (digits ++ more).takeWhile Char.isDigit = digits := by
    intro digits more hdigits hmore
    rw [List.takeWhile_append_of_pos hdigits]
    cases more with
    | nil => simp
    | cons char more => simp [hmore char rfl]
  have hsame : first = second := by rw [← htake hfirst htext, h, htake hsecond hrest]
  exact ⟨hsame, List.append_cancel_left (hsame ▸ h)⟩

theorem isDigits_writeNumber (count : Nat) : IsDigits (writeNumber count) :=
  ⟨Nat.toDigits_ne_nil, fun _ hchar => Nat.isDigit_of_mem_toDigits (by decide) (by decide) hchar⟩

theorem decimal_writeNumber (count : Nat) : decimal (writeNumber count) = count :=
  Nat.ofDigitChars_toDigits (by decide) (by decide)

/-- Only zero is written with a zero in front. -/
theorem writeNumber_of_zero (count : Nat) (h : (writeNumber count).head? = some '0') :
    writeNumber count = ['0'] := by
  induction count using Nat.strongRecOn with
  | ind count ih =>
      unfold writeNumber at h ⊢
      rw [Nat.toDigits_eq_if (by decide)] at h ⊢
      split at h
      · rename_i hsmall
        rw [if_pos hsmall]
        simpa using h
      · rename_i hlarge
        obtain ⟨digit, more, hfront⟩ :=
          List.exists_cons_of_ne_nil (Nat.toDigits_ne_nil (n := count / 10) (b := 10))
        have hhead : (writeNumber (count / 10)).head? = some '0' := by
          unfold writeNumber
          rw [hfront] at h ⊢
          exact h
        have hfront := ih (count / 10) (by omega) hhead
        have hvalue := decimal_writeNumber (count / 10)
        rw [hfront] at hvalue
        have hzero : decimal ['0'] = 0 := rfl
        omega

theorem number_writeNumber (count : Nat) (rest : List Char) :
    Number (writeNumber count ++ rest) count rest := by
  have hwhole : Whole (writeNumber count ++ rest) (decimal (writeNumber count)) rest :=
    .intro (isDigits_writeNumber count) (writeNumber_of_zero count) rfl
  rw [decimal_writeNumber] at hwhole
  have hnumber := Number.intro .absent hwhole .absent .absent
  simpa using hnumber

/-- Behind the digits in front of a point or an exponent there is no further digit. -/
theorem not_digit_of_fraction {text next rest : List Char} {fraction : ℚ} {exponent : ℤ}
    (hfraction : Fraction text fraction next) (hexponent : Exponent next exponent rest)
    (hrest : Stops rest) : ∀ char ∈ text.head?, char.isDigit = false := by
  have hmark : ∀ {mark : Char}, mark ∈ ['e', 'E'] → mark.isDigit = false := by
    intro mark hmark
    simp only [List.mem_cons, List.not_mem_nil, or_false] at hmark
    rcases hmark with rfl | rfl <;> rfl
  cases hfraction with
  | present _ _ => simp
  | absent =>
      cases hexponent with
      | absent => exact fun char hchar => (not_digit_of_stop char (hrest char hchar)).1
      | plain h _ _ => simpa using hmark h
      | plus h _ _ => simpa using hmark h
      | minus h _ _ => simpa using hmark h

/-- Where a number may stop, neither a fraction nor an exponent begins. -/
theorem eq_of_fraction_stop {text next rest : List Char} {fraction : ℚ} {exponent : ℤ}
    (htext : Stops text) (hfraction : Fraction text fraction next)
    (hexponent : Exponent next exponent rest) : fraction = 0 ∧ exponent = 0 ∧ rest = text := by
  cases hfraction with
  | present _ _ => exact absurd rfl (not_digit_of_stop '.' (htext '.' rfl)).2.1
  | absent =>
      cases hexponent with
      | absent => exact ⟨rfl, rfl, rfl⟩
      | plain hmark _ _ => exact absurd hmark (not_digit_of_stop _ (htext _ rfl)).2.2
      | plus hmark _ _ => exact absurd hmark (not_digit_of_stop _ (htext _ rfl)).2.2
      | minus hmark _ _ => exact absurd hmark (not_digit_of_stop _ (htext _ rfl)).2.2

theorem exists_digit_writeNumber (count : Nat) :
    ∃ digit more, writeNumber count = digit :: more ∧ digit.isDigit = true := by
  obtain ⟨hne, hdigits⟩ := isDigits_writeNumber count
  obtain ⟨digit, more, heq⟩ := List.exists_cons_of_ne_nil hne
  exact ⟨digit, more, heq, hdigits digit (by simp [heq])⟩

theorem eq_of_number_writeNumber {count : Nat} {found : ℚ} {text rest : List Char}
    (htext : Stops text) (hrest : Stops rest) (h : Number (writeNumber count ++ text) found rest) :
    found = count ∧ rest = text := by
  obtain ⟨digit, more, hwritten, hdigit⟩ := exists_digit_writeNumber count
  rw [hwritten] at h
  obtain ⟨hminus, ⟨hdigits, _, hsplit⟩, hfraction, hexponent⟩ := h
  cases hminus with
  | present => cases hdigit
  | absent =>
      rw [← hwritten] at hsplit
      obtain ⟨rfl, rfl⟩ := eq_of_digits_append (isDigits_writeNumber count).2 hdigits.2
        (fun char hchar => (not_digit_of_stop char (htext char hchar)).1)
        (not_digit_of_fraction hfraction hexponent hrest) hsplit
      obtain ⟨rfl, rfl, rfl⟩ := eq_of_fraction_stop htext hfraction hexponent
      exact ⟨by simp [decimal_writeNumber], rfl⟩

/-! ## Beginnings of values -/

theorem head_of_number {text rest : List Char} {found : ℚ} (h : Number text found rest) :
    ∃ char more, text = char :: more ∧ (char = '-' ∨ char.isDigit = true) := by
  obtain ⟨hminus, ⟨⟨hne, hdigits⟩, _, rfl⟩, _, _⟩ := h
  cases hminus with
  | present => exact ⟨'-', _, rfl, .inl rfl⟩
  | absent =>
      obtain ⟨digit, more, rfl⟩ := List.exists_cons_of_ne_nil hne
      exact ⟨digit, _, rfl, .inr (hdigits digit (List.mem_cons_self ..))⟩

theorem not_number {char : Char} {text rest : List Char} {found : ℚ} (hminus : char ≠ '-')
    (hdigit : char.isDigit = false) (h : Number (char :: text) found rest) : False := by
  obtain ⟨_, _, hsame, hhead⟩ := head_of_number h
  cases hsame
  rcases hhead with rfl | hdigit'
  · exact hminus rfl
  · rw [hdigit] at hdigit'
    cases hdigit'

/-- No value begins with a blank or a mark. -/
theorem not_stop_of_denotes {text rest : List Char} {found : Value}
    (h : Denotes text found rest) :
    ∀ char ∈ text.head?, char ∉ blanks ++ marks := by
  cases h with
  | number hnumber =>
      obtain ⟨char, more, rfl, hhead⟩ := head_of_number hnumber
      intro _ hchar hstop
      cases hchar
      rcases hhead with rfl | hdigit
      · exact absurd hstop (by decide)
      · rw [(not_digit_of_stop char hstop).1] at hdigit
        cases hdigit
  | text hquoted =>
      cases hquoted
      simp [blanks, marks]
  | null => simp [blanks, marks]
  | true => simp [blanks, marks]
  | false => simp [blanks, marks]
  | emptyList _ => simp [blanks, marks]
  | list _ => simp [blanks, marks]
  | emptyRecord _ => simp [blanks, marks]
  | record _ => simp [blanks, marks]

theorem noBlank_of_denotes {text rest : List Char} {found : Value}
    (h : Denotes text found rest) :
    NoBlank text :=
  fun char hchar hblank => not_stop_of_denotes h char hchar (List.mem_append_left _ hblank)

/-! ## Values -/

/-- Whatever stands behind it, a written part is read as a value, and as no other. -/
structure ReadsAs (written : List Char) (meaning : Value) : Prop where
  denotes : ∀ rest, Denotes (written ++ rest) meaning rest
  unique : ∀ {rest behind : List Char} {found : Value}, Stops rest → Stops behind →
    Denotes (written ++ rest) found behind → found = meaning ∧ behind = rest

theorem ReadsAs.text (content : String) : ReadsAs (writeText content) (.text content) where
  denotes rest := .text (quoted_writeText content rest)
  unique _ _ h := by
    generalize hall : writeText content ++ _ = all at h
    cases h with
    | text hquoted =>
        subst hall
        obtain ⟨rfl, rfl⟩ := eq_of_quoted_writeText hquoted
        exact ⟨rfl, rfl⟩
    | number hnumber =>
        subst hall
        exact (not_number (by decide) rfl hnumber).elim
    | _ => cases hall

theorem ReadsAs.number (count : Nat) : ReadsAs (writeNumber count) (.number count) where
  denotes rest := .number (number_writeNumber count rest)
  unique hrest hbehind h := by
    obtain ⟨digit, more, hwritten, hdigit⟩ := exists_digit_writeNumber count
    generalize hall : writeNumber count ++ _ = all at h
    cases h with
    | number hnumber =>
        subst hall
        obtain ⟨rfl, rfl⟩ := eq_of_number_writeNumber hrest hbehind hnumber
        exact ⟨rfl, rfl⟩
    | text hquoted =>
        cases hquoted
        obtain ⟨rfl, -⟩ := List.cons.inj ((congrArg (· ++ _) hwritten).symm.trans hall)
        cases hdigit
    | _ =>
        obtain ⟨rfl, -⟩ := List.cons.inj ((congrArg (· ++ _) hwritten).symm.trans hall)
        cases hdigit

/-- The end of the text, or a mark. -/
def Ends (text : List Char) : Prop :=
  ∀ char ∈ text.head?, char ∈ marks

theorem ends_cons {mark : Char} (hmark : mark ∈ marks) (rest : List Char) :
    Ends (mark :: rest) := by
  intro char hchar
  cases hchar
  exact hmark

theorem Ends.noBlank {text : List Char} (h : Ends text) : NoBlank text := by
  have hmarks : ∀ char ∈ marks, char ∉ blanks := by simp [blanks, marks]
  exact fun char hchar => hmarks char (h char hchar)

theorem stops_of_gap {text rest : List Char} (hgap : Gap text rest) (hrest : Ends rest) :
    Stops text := by
  cases hgap with
  | none => exact fun char hchar => List.mem_append_right _ (hrest char hchar)
  | more hblank _ =>
      intro char hchar
      cases hchar
      exact List.mem_append_left _ hblank

theorem eq_of_gap_mark {gap rest behind : List Char} {mark found : Char}
    (hgap : ∀ char ∈ gap, char ∈ blanks) (hmark : mark ∈ marks) (hfound : found ∈ marks)
    (h : Gap (gap ++ mark :: rest) (found :: behind)) : found = mark ∧ behind = rest := by
  have hsame := gap_unique h (gap_of_blanks hgap _) (ends_cons hfound _).noBlank
    (ends_cons hmark _).noBlank
  cases hsame
  exact ⟨rfl, rfl⟩

/-! ## Series -/

/-- In front of a gap, a written part is read as a part of a series, and as no other. -/
structure ReadsAsPart {Part : Type} (part : List Char → Part → List Char → Prop)
    (written : List Char) (meaning : Part) : Prop where
  reads : ∀ {text rest : List Char}, Gap text rest → part (written ++ text) meaning rest
  unique : ∀ {text rest : List Char} {found : Part}, Stops text → Ends rest →
    part (written ++ text) found rest → found = meaning ∧ Gap text rest

/-- In front of the closing mark, written parts are read as a series, and as no other. -/
structure ReadsAsSeries {Part : Type} (part : List Char → Part → List Char → Prop)
    (closing : Char) (written : List Char) (meanings : List Part) : Prop where
  reads : ∀ rest, Series part (written ++ closing :: rest) meanings (closing :: rest)
  unique : ∀ {rest behind : List Char} {found : List Part},
    Series part (written ++ closing :: rest) found (closing :: behind) →
      found = meanings ∧ behind = rest

section Series

variable {Part : Type} {part : List Char → Part → List Char → Prop} {closing : Char}
  {before after written others : List Char} {meaning : Part} {meanings : List Part}

theorem ReadsAsSeries.one (hclosing : closing ∈ marks) (hcomma : closing ≠ ',')
    (h : ReadsAsPart part written meaning) (hafter : ∀ char ∈ after, char ∈ blanks) :
    ReadsAsSeries part closing (written ++ after) [meaning] where
  reads rest := by
    rw [List.append_assoc]
    exact .one (h.reads (gap_of_blanks hafter _))
  unique {rest behind found} hfound := by
    have hstops : Stops (after ++ closing :: rest) :=
      stops_of_gap (gap_of_blanks hafter _) (ends_cons hclosing rest)
    rw [List.append_assoc] at hfound
    cases hfound with
    | one hpart =>
        obtain ⟨rfl, hgap⟩ := h.unique hstops (ends_cons hclosing _) hpart
        obtain ⟨-, rfl⟩ := eq_of_gap_mark hafter hclosing hclosing hgap
        exact ⟨rfl, rfl⟩
    | more hpart _ =>
        obtain ⟨-, hgap⟩ := h.unique hstops (ends_cons (by decide) _) hpart
        obtain ⟨hnever, -⟩ := eq_of_gap_mark hafter hclosing (by decide) hgap
        exact absurd hnever.symm hcomma

theorem ReadsAsSeries.more (hclosing : closing ∈ marks) (hcomma : closing ≠ ',')
    (h : ReadsAsPart part written meaning) (hothers : ReadsAsSeries part closing others meanings) :
    ReadsAsSeries part closing (written ++ ',' :: others) (meaning :: meanings) where
  reads rest := by
    rw [List.append_assoc, List.cons_append]
    exact .more (h.reads .none) (hothers.reads rest)
  unique {rest behind found} hfound := by
    have hmark : ',' ∈ marks := by decide
    have hstops : Stops (',' :: (others ++ closing :: rest)) :=
      stops_of_gap .none (ends_cons hmark _)
    have hnone : ∀ char ∈ ([] : List Char), char ∈ blanks := by simp
    rw [List.append_assoc, List.cons_append] at hfound
    cases hfound with
    | one hpart =>
        obtain ⟨-, hgap⟩ := h.unique hstops (ends_cons hclosing _) hpart
        obtain ⟨hnever, -⟩ := eq_of_gap_mark hnone hmark hclosing hgap
        exact absurd hnever hcomma
    | more hpart hmore =>
        obtain ⟨rfl, hgap⟩ := h.unique hstops (ends_cons hmark _) hpart
        obtain ⟨-, rfl⟩ := eq_of_gap_mark hnone hmark hmark hgap
        obtain ⟨rfl, rfl⟩ := hothers.unique hmore
        exact ⟨rfl, rfl⟩

end Series

/-! ## Lists and records -/

section Parts

variable {before written : List Char} {meaning : Value}

theorem ReadsAs.element (h : ReadsAs written meaning)
    (hbefore : ∀ char ∈ before, char ∈ blanks) :
    ReadsAsPart Element (before ++ written) meaning where
  reads hgap := by
    rw [List.append_assoc]
    exact .intro (gap_of_blanks hbefore _) (h.denotes _) hgap
  unique {text rest found} htext hrest helement := by
    rw [List.append_assoc] at helement
    cases helement with
    | intro hstart hfound hafter =>
        obtain rfl :=
          gap_unique hstart (gap_of_blanks hbefore _) (noBlank_of_denotes hfound)
          (noBlank_of_denotes (h.denotes text))
        obtain ⟨rfl, rfl⟩ := h.unique htext (stops_of_gap hafter hrest) hfound
        exact ⟨rfl, hafter⟩

theorem noBlank_of_quoted {text rest : List Char} {found : String}
    (h : Quoted text found rest) :
    NoBlank text :=
  noBlank_of_denotes (.text h)

theorem ReadsAs.member (h : ReadsAs written meaning) (name : String)
    (hbefore : ∀ char ∈ before, char ∈ blanks) :
    ReadsAsPart Member (before ++ (writeText name ++ ':' :: ' ' :: written)) (name, meaning) where
  reads hgap := by
    have hspace : ∀ char ∈ [' '], char ∈ blanks := by simp [blanks]
    simp only [List.append_assoc, List.cons_append]
    exact .intro (gap_of_blanks hbefore _) (quoted_writeText name _) .none
      ((h.element hspace).reads hgap)
  unique {text rest found} htext hrest hmember := by
    have hspace : ∀ char ∈ [' '], char ∈ blanks := by simp [blanks]
    simp only [List.append_assoc, List.cons_append] at hmember
    cases hmember with
    | intro hstart hname hcolon helement =>
        obtain rfl := gap_unique hstart (gap_of_blanks hbefore _) (noBlank_of_quoted hname)
          (noBlank_of_quoted (quoted_writeText name _))
        obtain ⟨rfl, rfl⟩ := eq_of_quoted_writeText hname
        have hnoBlank : ∀ {more : List Char}, NoBlank (':' :: more) := by
          simp [NoBlank, blanks]
        cases gap_unique hcolon .none hnoBlank hnoBlank
        obtain ⟨rfl, hgap⟩ := (h.element hspace).unique htext hrest helement
        exact ⟨rfl, hgap⟩

/-- A value or a name begins with neither a blank nor a mark, so it is no part of a gap. -/
theorem not_gap_of_denotes {text start rest behind : List Char} {found : Value}
    {mark : Char}
    (hgap : Gap text start) (h : Denotes start found rest) (hmark : mark ∈ marks) :
    ¬ Gap text (mark :: behind) := by
  intro hclosing
  obtain rfl := gap_unique hgap hclosing (noBlank_of_denotes h) (ends_cons hmark _).noBlank
  exact not_stop_of_denotes h mark rfl (List.mem_append_right _ hmark)

theorem not_gap_of_items {text rest behind : List Char} {found : List Value} {mark : Char}
    (h : Series Element text found rest) (hmark : mark ∈ marks) : ¬ Gap text (mark :: behind) := by
  cases h with
  | one hpart | more hpart _ =>
      obtain ⟨hbefore, hvalue, _⟩ := hpart
      exact not_gap_of_denotes hbefore hvalue hmark

theorem not_gap_of_members {text rest behind : List Char} {found : List (String × Value)}
    {mark : Char} (h : Series Member text found rest) (hmark : mark ∈ marks) :
    ¬ Gap text (mark :: behind) := by
  cases h with
  | one hpart | more hpart _ =>
      obtain ⟨hbefore, hname, _, _⟩ := hpart
      exact not_gap_of_denotes hbefore (.text hname) hmark

theorem ReadsAs.list {items : List Value} (h : ReadsAsSeries Element ']' written items) :
    ReadsAs ('[' :: (written ++ [']'])) (.list items) where
  denotes rest := by
    simpa using Denotes.list (h.reads rest)
  unique {rest behind found} _ _ hfound := by
    simp only [List.cons_append, List.append_assoc, List.nil_append] at hfound
    cases hfound with
    | number hnumber => exact (not_number (by decide) rfl hnumber).elim
    | text hquoted => cases hquoted
    | emptyList hgap => exact absurd hgap (not_gap_of_items (h.reads rest) (by decide))
    | list hseries =>
        obtain ⟨rfl, rfl⟩ := h.unique hseries
        exact ⟨rfl, rfl⟩

theorem ReadsAs.record {members : List (String × Value)}
    (h : ReadsAsSeries Member '\x7d' written members) :
    ReadsAs ('\x7b' :: (written ++ ['\x7d'])) (.record members) where
  denotes rest := by
    simpa using Denotes.record (h.reads rest)
  unique {rest behind found} _ _ hfound := by
    simp only [List.cons_append, List.append_assoc, List.nil_append] at hfound
    cases hfound with
    | number hnumber => exact (not_number (by decide) rfl hnumber).elim
    | text hquoted => cases hquoted
    | emptyRecord hgap => exact absurd hgap (not_gap_of_members (h.reads rest) (by decide))
    | record hseries =>
        obtain ⟨rfl, rfl⟩ := h.unique hseries
        exact ⟨rfl, rfl⟩

/-- A closing mark right behind the opening one leaves no room for a part. -/
theorem eq_of_gap_closing {rest behind : List Char} {closing : Char}
    (hclosing : closing ∈ marks)
    (h : Gap (closing :: rest) (closing :: behind)) : behind = rest := by
  have hgap : ∀ char ∈ ([] : List Char), char ∈ blanks := by simp
  exact (eq_of_gap_mark hgap hclosing hclosing h).2

theorem ReadsAs.emptyList : ReadsAs ['[', ']'] (.list []) where
  denotes rest := .emptyList .none
  unique {rest behind found} _ _ hfound := by
    cases hfound with
    | number hnumber => exact (not_number (by decide) rfl hnumber).elim
    | text hquoted => cases hquoted
    | emptyList hgap => exact ⟨rfl, eq_of_gap_closing (by decide) hgap⟩
    | list hseries => exact absurd Gap.none (not_gap_of_items hseries (by decide))

theorem ReadsAs.emptyRecord : ReadsAs ['\x7b', '\x7d'] (.record []) where
  denotes rest := .emptyRecord .none
  unique {rest behind found} _ _ hfound := by
    cases hfound with
    | number hnumber => exact (not_number (by decide) rfl hnumber).elim
    | text hquoted => cases hquoted
    | emptyRecord hgap => exact ⟨rfl, eq_of_gap_closing (by decide) hgap⟩
    | record hseries => exact absurd Gap.none (not_gap_of_members hseries (by decide))

end Parts

/-! ## Documents -/

mutual

theorem readsAs_write : ∀ (document : Json) (level : Nat),
    ReadsAs (document.write level) document.value
  | .text content, level => by
      rw [write]
      exact .text content
  | .number count, level => by
      rw [write]
      exact .number count
  | .list [], level => by
      rw [write]
      exact .emptyList
  | .list (item :: rest), level => by
      have hfirst := (readsAs_write item (level + 1)).element (newLine_blank (level + 1))
      have hitems := readsAsSeries_writeItems rest (level + 1) hfirst (newLine_blank level)
      simpa [write, value, values] using ReadsAs.list hitems
  | .record [], level => by
      rw [write]
      exact .emptyRecord
  | .record ((name, content) :: rest), level => by
      have hfirst :=
        (readsAs_write content (level + 1)).member name (newLine_blank (level + 1))
      have hmembers :=
        readsAsSeries_writeFields rest (level + 1) hfirst (newLine_blank level)
      simpa [write, value, members] using ReadsAs.record hmembers

theorem readsAsSeries_writeItems : ∀ (items : List Json) (level : Nat)
    {first gap : List Char} {meaning : Value} (_ : ReadsAsPart Element first meaning)
    (_ : ∀ char ∈ gap, char ∈ blanks),
    ReadsAsSeries Element ']' (first ++ (writeItems level items ++ gap)) (meaning :: values items)
  | [], level, first, gap, meaning, hfirst, hgap => by
      rw [writeItems, values, List.nil_append]
      exact .one (by decide) (by decide) hfirst hgap
  | item :: rest, level, first, gap, meaning, hfirst, hgap => by
      have hnext := (readsAs_write item level).element (newLine_blank level)
      have hitems := readsAsSeries_writeItems rest level hnext hgap
      simpa [writeItems, values] using hitems.more (by decide) (by decide) hfirst

theorem readsAsSeries_writeFields : ∀ (fields : List (String × Json)) (level : Nat)
    {first gap : List Char} {meaning : String × Value} (_ : ReadsAsPart Member first meaning)
    (_ : ∀ char ∈ gap, char ∈ blanks),
    ReadsAsSeries Member '\x7d' (first ++ (writeFields level fields ++ gap))
      (meaning :: members fields)
  | [], level, first, gap, meaning, hfirst, hgap => by
      rw [writeFields, members, List.nil_append]
      exact .one (by decide) (by decide) hfirst hgap
  | (name, content) :: rest, level, first, gap, meaning, hfirst, hgap => by
      have hnext := (readsAs_write content level).member name (newLine_blank level)
      have hmembers := readsAsSeries_writeFields rest level hnext hgap
      simpa [writeFields, members] using hmembers.more (by decide) (by decide) hfirst

end

theorem denotes_pretty (document : Json) :
    Grammar.Denotes document.pretty.toList document.value [] := by
  have hdenotes := (readsAs_write document 0).denotes []
  rwa [List.append_nil, ← String.toList_ofList (l := document.write 0)] at hdenotes

/--
A written document, with a gap behind it or not, denotes the document and nothing else.
-/
theorem document_pretty_iff (document : Json) {gap : List Char}
    (hgap : ∀ char ∈ gap, char ∈ blanks) (found : Value) :
    Grammar.Document (document.pretty.toList ++ gap) found ↔ found = document.value := by
  have hpart : ReadsAsPart Element ([] ++ document.write 0) document.value :=
    (readsAs_write document 0).element (by simp)
  have hend : Gap gap [] := by simpa using gap_of_blanks hgap []
  have hnothing : Ends [] := by simp [Ends]
  have hpretty : document.pretty.toList = [] ++ document.write 0 := String.toList_ofList
  rw [Grammar.Document, hpretty]
  constructor
  · exact fun h => (hpart.unique (stops_of_gap hend hnothing) hnothing h).1
  · rintro rfl
    exact hpart.reads hend

end Classlet.Json
