import Classlet.Console.Transcript

/-!
# Unstyled output

What is left of an output once the sequences that switch styles are deleted from it.
Of a span this is its text, if that holds no escape character of its own.  So the
standard output of such texts, rendered with color, loses with its sequences nothing
but the color.  A log line is the matter of a logger; of this it is only required that
styles are whole sequences.
-/

namespace Classlet.Console

/-! ## Deleting sequences -/

def escape : Char := '\x1b'

/-- The character may stand between the bracket and the end of a sequence. -/
def isParameter (char : Char) : Bool :=
  char.isDigit || char = ';'

/-- The length of the sequence that a text begins with, if it begins with one. -/
def sequenceLength? : List Char → Option Nat
  | '\x1b' :: '[' :: rest =>
      if (rest.dropWhile isParameter).head? = some 'm' then
        some ((rest.takeWhile isParameter).length + 3)
      else none
  | _ => none

/-- Delete each sequence of a text whose first `covered` characters belong to one. -/
def unstyledAfter : (covered : Nat) → List Char → List Char
  | _, [] => []
  | covered + 1, _ :: rest => unstyledAfter covered rest
  | 0, char :: rest =>
      match sequenceLength? (char :: rest) with
      | some length => unstyledAfter (length - 1) rest
      | none => char :: unstyledAfter 0 rest

def unstyled (text : String) : String :=
  String.ofList (unstyledAfter 0 text.toList)

theorem unstyledAfter_length (front back : List Char) :
    unstyledAfter front.length (front ++ back) = unstyledAfter 0 back := by
  induction front with
  | nil => rfl
  | cons char front ih => exact ih

theorem sequenceLength?_of_ne {char : Char} (rest : List Char) (h : char ≠ escape) :
    sequenceLength? (char :: rest) = none := by
  unfold sequenceLength?
  split
  · rename_i heq
    cases heq
    exact absurd rfl h
  · rfl

theorem sequenceLength?_sequence {code : String}
    (h : ∀ char ∈ code.toList, isParameter char = true) (back : List Char) :
    sequenceLength? (sequence code ++ back) = some (sequence code).length := by
  have hmark : isParameter 'm' = false := rfl
  have htake : (code.toList ++ 'm' :: back).takeWhile isParameter = code.toList := by
    rw [List.takeWhile_append_of_pos h, List.takeWhile_cons_of_neg (by simp [hmark]),
      List.append_nil]
  have hdrop : (code.toList ++ 'm' :: back).dropWhile isParameter = 'm' :: back := by
    rw [List.dropWhile_append_of_pos h, List.dropWhile_cons_of_neg (by simp [hmark])]
  simp [sequence, sequenceLength?, htake, hdrop]

/-! ## Styled forms -/

/-- Deleting sequences turns `styled` into `bare`, whatever comes behind it. -/
def Unstyles (styled bare : List Char) : Prop :=
  ∀ back, unstyledAfter 0 (styled ++ back) = bare ++ unstyledAfter 0 back

section Unstyles

variable {styled bare more rest : List Char}

theorem Unstyles.append (hfirst : Unstyles styled bare) (hsecond : Unstyles more rest) :
    Unstyles (styled ++ more) (bare ++ rest) := by
  intro back
  rw [List.append_assoc, hfirst, hsecond, List.append_assoc]

theorem Unstyles.flatMap {Part : Type} {styledOf bareOf : Part → List Char}
    {parts : List Part} (h : ∀ part ∈ parts, Unstyles (styledOf part) (bareOf part)) :
    Unstyles (parts.flatMap styledOf) (parts.flatMap bareOf) := by
  induction parts with
  | nil => exact fun back => rfl
  | cons part parts ih =>
      have hpart := h part List.mem_cons_self
      exact hpart.append (ih fun other hother =>
        h other (List.mem_cons_of_mem part hother))

theorem Unstyles.unstyled_eq (h : Unstyles styled bare) :
    unstyled (String.ofList styled) = String.ofList bare := by
  have hall := h []
  rw [List.append_nil] at hall
  rw [unstyled, String.toList_ofList, hall]
  exact congrArg String.ofList (List.append_nil bare)

/-- Without an escape character there is nothing to delete. -/
theorem unstyles_self (h : escape ∉ bare) : Unstyles bare bare := by
  intro back
  induction bare with
  | nil => rfl
  | cons char bare ih =>
      simp only [List.mem_cons, not_or] at h
      obtain ⟨hchar, hbare⟩ := h
      rw [List.cons_append, unstyledAfter, sequenceLength?_of_ne _ (Ne.symm hchar)]
      exact congrArg (char :: ·) (ih hbare)

theorem unstyles_sequence {code : String}
    (h : ∀ char ∈ code.toList, isParameter char = true) :
    Unstyles (sequence code) [] := by
  intro back
  have hlength := sequenceLength?_sequence h back
  have hcons : sequence code = escape :: (sequence code).tail := rfl
  rw [hcons, List.cons_append] at hlength ⊢
  rw [unstyledAfter, hlength]
  exact unstyledAfter_length (sequence code).tail back

theorem Style.isParameter_of_code? {style : Style} {code : String}
    (h : style.code? = some code) : ∀ char ∈ code.toList, isParameter char = true := by
  cases style <;> cases h <;> simp [isParameter]

end Unstyles

/-! ## Looks -/

/-- The text has no escape character. -/
def Clean (text : String) : Prop :=
  escape ∉ text.toList

/-- In all its looks a text is the same, but for the sequences in it. -/
def Decorates {Look : Type} (text : Look → List Char) : Prop :=
  ∃ bare, escape ∉ bare ∧ ∀ look, Unstyles (text look) bare

section Decorates

variable {Look Part : Type} {text other : Look → List Char}

theorem Decorates.append (htext : Decorates text) (hother : Decorates other) :
    Decorates fun look => text look ++ other look := by
  obtain ⟨bare, hbare, hlooks⟩ := htext
  obtain ⟨rest, hrest, hothers⟩ := hother
  refine ⟨bare ++ rest, ?_, fun look => (hlooks look).append (hothers look)⟩
  simp [hbare, hrest]

theorem Decorates.flatMap {textOf : Part → Look → List Char} {parts : List Part}
    (h : ∀ part ∈ parts, Decorates (textOf part)) :
    Decorates fun look => parts.flatMap (textOf · look) := by
  induction parts with
  | nil => exact ⟨[], List.not_mem_nil, fun _ _ => rfl⟩
  | cons part parts ih =>
      have hpart := h part List.mem_cons_self
      exact hpart.append (ih fun other hother =>
        h other (List.mem_cons_of_mem part hother))

theorem decorates_const {bare : List Char} (h : escape ∉ bare) :
    Decorates fun _ : Look => bare :=
  ⟨bare, h, fun _ => unstyles_self h⟩

theorem Decorates.comp {Other : Type} (h : Decorates text) (look : Other → Look) :
    Decorates fun other => text (look other) := by
  obtain ⟨bare, hbare, hlooks⟩ := h
  exact ⟨bare, hbare, fun other => hlooks (look other)⟩

theorem Decorates.unstyled_eq (h : Decorates text) (one other : Look) :
    unstyled (String.ofList (text one)) = unstyled (String.ofList (text other)) := by
  obtain ⟨bare, _, hlooks⟩ := h
  rw [(hlooks one).unstyled_eq, (hlooks other).unstyled_eq]

/-- Deleting the sequences gives a look that has none, and no other. -/
theorem Decorates.unstyled_eq_iff (h : Decorates text) (one other : Look) :
    unstyled (String.ofList (text one)) = String.ofList (text other) ↔
      Clean (String.ofList (text other)) := by
  rw [h.unstyled_eq one other]
  constructor
  · intro heq
    obtain ⟨bare, hbare, hlooks⟩ := h
    rw [← heq, (hlooks other).unstyled_eq, Clean, String.toList_ofList]
    exact hbare
  · intro hclean
    rw [Clean, String.toList_ofList] at hclean
    exact (unstyles_self hclean).unstyled_eq

end Decorates

/-! ## Clean transcripts -/

/-- What a notice tells has no escape character, whether it is shown or not. -/
def Notice.Clean : Notice → Prop
  | span text => Console.Clean text.text
  | remark told => Console.Clean told.message

/-- Nothing in a transcript has an escape character, but for those of its styles. -/
structure Transcript.Clean (transcript : Transcript) : Prop where
  out : ∀ span ∈ transcript.out, Console.Clean span.text
  err : ∀ notice ∈ transcript.err, notice.Clean

theorem Span.unstyles {span : Span} (h : Clean span.text) :
    Unstyles (span.render true) (span.render false) := by
  have htext : Unstyles span.text.toList span.text.toList := unstyles_self h
  unfold Span.render
  cases hcode : span.style.code? with
  | none => exact htext
  | some code =>
      have hon := unstyles_sequence (Style.isParameter_of_code? hcode)
      have hoff : Unstyles (sequence "0") [] :=
        unstyles_sequence (by simp [isParameter])
      simpa using (hon.append htext).append hoff

theorem Span.decorates {span : Span} (h : Clean span.text) :
    Decorates fun color => span.render color := by
  refine ⟨span.render false, h, fun color => ?_⟩
  cases color with
  | true => exact Span.unstyles h
  | false => exact unstyles_self h

theorem Transcript.Clean.unstyled_stdout {transcript : Transcript}
    (h : transcript.Clean) (logging other : Logging) :
    unstyled (transcript.stdout ⟨true, logging⟩) = transcript.stdout ⟨false, other⟩ :=
  (Unstyles.flatMap fun span hspan => Span.unstyles (h.out span hspan)).unstyled_eq

/-! ## Clean parts -/

@[simp] theorem clean_append {front back : String} :
    Clean (front ++ back) ↔ Clean front ∧ Clean back := by
  simp [Clean, not_or]

@[simp] theorem clean_ofList {chars : List Char} :
    Clean (String.ofList chars) ↔ escape ∉ chars := by
  simp [Clean]

/--
A fixed text, given by its characters: decoding a long text is slow in the kernel.
-/
theorem clean_literal {text : String} {chars : List Char}
    (htext : text = String.ofList chars) (h : escape ∉ chars) : Clean text := by
  rw [htext]
  exact clean_ofList.mpr h

@[simp] theorem clean_text {text : String} : Clean (toString text) ↔ Clean text :=
  Iff.rfl

@[simp] theorem clean_number (number : Nat) : Clean number.repr := by
  have htext : number.repr = String.ofList (Nat.toDigits 10 number) := rfl
  rw [htext, clean_ofList]
  intro hmem
  have hdigit : escape.isDigit = true :=
    Nat.isDigit_of_mem_toDigits (by decide) (by decide) hmem
  exact absurd hdigit (by decide)

def CleanLines (lines : List Line) : Prop :=
  ∀ line ∈ lines, ∀ span ∈ line, Clean span.text

@[simp] theorem cleanLines_nil : CleanLines [] := by
  simp [CleanLines]

@[simp] theorem cleanLines_cons {line : Line} {lines : List Line} :
    CleanLines (line :: lines) ↔ (∀ span ∈ line, Clean span.text) ∧ CleanLines lines :=
  List.forall_mem_cons

@[simp] theorem cleanLines_append {front back : List Line} :
    CleanLines (front ++ back) ↔ CleanLines front ∧ CleanLines back :=
  List.forall_mem_append

theorem CleanLines.spansOf {lines : List Line} (h : CleanLines lines) :
    ∀ span ∈ Console.spansOf lines, Clean span.text := by
  intro span hspan
  obtain ⟨line, hline, hmem⟩ := List.mem_flatMap.mp hspan
  rcases List.mem_append.mp hmem with hmem | hmem
  · exact h line hline span hmem
  · rw [List.mem_singleton.mp hmem]
    exact clean_literal rfl (by decide)

namespace Transcript

variable {first second : Transcript} {lines : List Line}

theorem Clean.append (hfirst : first.Clean) (hsecond : second.Clean) :
    (first ++ second).Clean where
  out := List.forall_mem_append.mpr ⟨hfirst.out, hsecond.out⟩
  err := List.forall_mem_append.mpr ⟨hfirst.err, hsecond.err⟩

theorem clean_empty : empty.Clean where
  out := by simp [empty]
  err := by simp [empty]

theorem clean_write {spans : List Span} (h : ∀ span ∈ spans, Console.Clean span.text) :
    (write spans).Clean where
  out := h
  err := by simp [write]

theorem clean_say (h : CleanLines lines) : (say lines).Clean :=
  clean_write h.spansOf

theorem clean_complain (h : CleanLines lines) : (complain lines).Clean where
  out := by simp [complain]
  err := by
    intro notice hnotice
    obtain ⟨span, hspan, rfl⟩ := List.mem_map.mp hnotice
    exact h.spansOf span hspan

theorem clean_log {remarks : List Remark}
    (h : ∀ told ∈ remarks, Console.Clean told.message) : (log remarks).Clean where
  out := by simp [log]
  err := by
    intro notice hnotice
    obtain ⟨told, htold, rfl⟩ := List.mem_map.mp hnotice
    exact h told htold

end Transcript

end Classlet.Console
