import Classlet.Proofs.Analysis.Respelling
import Classlet.Report.Advice

/-!
# What advice on syntax is about

The advice on a fault of syntax is chosen by phrases of its message.  They stand there
because of what was expected, because of the kind of the token found, or because the
token itself has them in its text: advice that is meant for a comment is given to a name
that is spelled like one.
-/

namespace Classlet

/-! ## Phrases -/

namespace Text

variable {needle front back : List Char} {mark : Char}

theorem occursIn_iff {text : List Char} :
    occursIn needle text = true ↔ needle <:+: text := by
  induction text with
  | nil => simp [occursIn]
  | cons char rest ih =>
      rw [occursIn, Bool.or_eq_true, List.isPrefixOf_iff_prefix, ih, List.infix_cons_iff]

theorem prefix_of_prefix_append_cons (hmark : mark ∉ needle)
    (h : needle <+: front ++ mark :: back) : needle <+: front := by
  rcases List.prefix_or_prefix_of_prefix h (List.prefix_append front (mark :: back)) with
    hfront | ⟨more, rfl⟩
  · exact hfront
  · have hmore : more <+: mark :: back := (List.prefix_append_right_inj front).mp h
    cases more with
    | nil => simp
    | cons next more =>
        obtain ⟨rfl, _⟩ := List.cons_prefix_cons.mp hmore
        simp at hmark

/-- What has no `mark` stands wholly before it or wholly behind it. -/
theorem infix_append_cons_iff (hmark : mark ∉ needle) :
    needle <:+: front ++ mark :: back ↔ needle <:+: front ∨ needle <:+: back := by
  constructor
  · induction front with
    | nil =>
        intro h
        rcases List.infix_cons_iff.mp h with hbegins | hback
        · exact .inl (prefix_of_prefix_append_cons hmark hbegins).isInfix
        · exact .inr hback
    | cons char front ih =>
        intro h
        rcases List.infix_cons_iff.mp h with hbegins | hrest
        · exact .inl (prefix_of_prefix_append_cons hmark hbegins).isInfix
        · exact (ih hrest).imp_left List.infix_cons
  · rintro (h | h)
    · exact h.trans (List.prefix_append ..).isInfix
    · exact h.trans ((List.suffix_cons ..).trans (List.suffix_append ..)).isInfix

end Text

namespace Report

open Console (Line)

/-- What advice on syntax can be about, in the order in which it is given. -/
inductive Topic where
  | step
  | access
  | comment
  | ending
  | semicolon
  deriving DecidableEq, Repr

namespace Topic

def all : List Topic := [step, access, comment, ending, semicolon]

/-- The phrases of a message that call for the advice. -/
def phrases : Topic → List String
  | step => ["compound assignment operator", "found NUMBER"]
  | access => ["access modifier"]
  | comment => ["COMMENT"]
  | ending => ["end of input"]
  | semicolon => ["Expected SEMICOLON"]

def help : Topic → String
  | step => "Help: A for-loop step has the form `i += 1`."
  | access => "Help: Classes and members start with public, private or protected."
  | comment => "Help: Comments are not allowed at this position."
  | ending => "Help: Check that every '\x7b' has a matching '\x7d'."
  | semicolon => "Help: Did you forget a ';'?"

theorem help_inj {first second : Topic} : first.help = second.help ↔ first = second := by
  constructor
  · cases first <;> cases second <;> decide
  · exact congrArg help

def lines (topic : Topic) : List Line :=
  hint topic.help ::
    if topic = step then [detail "Supported: += -= *= /= %= ++ -- followed by a number"] else []

def mentionedIn (text : List Char) (topic : Topic) : Bool :=
  topic.phrases.any fun phrase => Text.occursIn phrase.toList text

/-- Whether the topic is about what was expected. -/
def concernsWanted (wanted : Wanted) : Topic → Bool
  | step => wanted = .stepOperator
  | access => wanted = .access
  | comment => wanted = .kind (.comment .line) || wanted = .kind (.comment .block)
  | ending => false
  | semicolon => wanted = .kind .semicolon

/-- Whether the topic is about the kind of token found. -/
def concernsKind (kind : Kind) : Topic → Bool
  | step => kind = .number
  | comment => kind.isComment
  | access | ending | semicolon => false

/-! ## Topics of a message -/

theorem phrase_plain (topic : Topic) :
    ∀ phrase ∈ topic.phrases, ',' ∉ phrase.toList ∧ '\'' ∉ phrase.toList := by
  cases topic <;> decide

theorem mentionedIn_nil (topic : Topic) : topic.mentionedIn [] = false := by
  cases topic <;> decide

theorem mentionedIn_append_cons {front back : List Char} {mark : Char} (topic : Topic)
    (hmark : mark = ',' ∨ mark = '\'') :
    topic.mentionedIn (front ++ mark :: back) =
      (topic.mentionedIn front || topic.mentionedIn back) := by
  have hsplit : ∀ phrase ∈ topic.phrases, phrase.toList <:+: front ++ mark :: back ↔
      phrase.toList <:+: front ∨ phrase.toList <:+: back := by
    intro phrase hphrase
    obtain ⟨hcomma, hquote⟩ := topic.phrase_plain phrase hphrase
    rcases hmark with rfl | rfl
    · exact Text.infix_append_cons_iff hcomma
    · exact Text.infix_append_cons_iff hquote
  rw [Bool.eq_iff_iff, Bool.or_eq_true]
  simp only [mentionedIn, List.any_eq_true, Text.occursIn_iff, ← exists_or, ← and_or_left]
  exact exists_congr fun phrase => and_congr_right (hsplit phrase)

theorem mentionedIn_wanted (topic : Topic) (wanted : Wanted) :
    topic.mentionedIn ("Expected ".toList ++ wanted.describe.toList) =
      topic.concernsWanted wanted := by
  cases wanted with
  | kind kind =>
      cases kind with
      | type inner | word inner | access inner | binary inner | step inner | comment inner =>
          cases inner <;> cases topic <;> rfl
      | _ => cases topic <;> rfl
  | _ => cases topic <;> rfl

theorem mentionedIn_found (topic : Topic) (kind : Kind) :
    topic.mentionedIn (" found ".toList ++ kind.name.toList ++ [' ']) =
      topic.concernsKind kind := by
  cases kind with
  | type inner | word inner | access inner | binary inner | step inner | comment inner =>
      cases inner <;> cases topic <;> rfl
  | _ => cases topic <;> rfl

theorem mentionedIn_message (topic : Topic) (wanted : Wanted) (token : Token) :
    topic.mentionedIn (Fault.unexpected wanted (.token token)).message.toList =
      (topic.concernsWanted wanted || topic.concernsKind token.kind ||
        topic.mentionedIn token.lexeme.toList) := by
  -- A comma and two quotes part the message, and no phrase has any of these.
  have hmessage : (Fault.unexpected wanted (.token token)).message.toList =
      ("Expected ".toList ++ wanted.describe.toList) ++ ',' ::
        ((" found ".toList ++ token.kind.name.toList ++ [' ']) ++ '\'' ::
          (token.lexeme.toList ++ '\'' :: [])) := by
    calc (Fault.unexpected wanted (.token token)).message.toList
      _ = ("Expected " ++ wanted.describe ++ ", found " ++
            (token.kind.name ++ " '" ++ token.lexeme ++ "'")).toList := rfl
      _ = "Expected ".toList ++ wanted.describe.toList ++ ", found ".toList ++
            (token.kind.name.toList ++ " '".toList ++ token.lexeme.toList ++ "'".toList) := by
          simp only [String.toList_append]
      _ = "Expected ".toList ++ wanted.describe.toList ++ (',' :: " found ".toList) ++
            (token.kind.name.toList ++ [' ', '\''] ++ token.lexeme.toList ++ ['\'']) := rfl
      _ = _ := by simp only [List.append_assoc, List.cons_append, List.nil_append]
  rw [hmessage, mentionedIn_append_cons topic (.inl rfl), mentionedIn_append_cons topic (.inr rfl),
    mentionedIn_append_cons topic (.inr rfl), mentionedIn_nil, mentionedIn_wanted,
    mentionedIn_found, Bool.or_false, Bool.or_assoc]

end Topic

/-- The first topic that what was expected, the kind found or the text found calls for. -/
def topic? (wanted : Wanted) (kind : Kind) (lexeme : String) : Option Topic :=
  Topic.all.find? fun topic =>
    topic.concernsWanted wanted || topic.concernsKind kind || topic.mentionedIn lexeme.toList

/-- The advice on a topic; none if nothing calls for any. -/
def topicLines (called? : Option Topic) : List Line :=
  called?.elim [] Topic.lines

theorem topicLines_inj {first second : Option Topic} :
    topicLines first = topicLines second ↔ first = second := by
  constructor
  · intro h
    cases first with
    | none =>
        cases second with
        | none => rfl
        | some topic => cases h
    | some topic =>
        cases second with
        | none => cases h
        | some other =>
            obtain ⟨hhint, _⟩ := List.cons.inj h
            have hhelp : topic.help = other.help := by
              simpa [hint, Console.yellow] using hhint
            exact congrArg some (Topic.help_inj.mp hhelp)
  · exact congrArg topicLines

theorem syntaxAdvice_eq (message : String) :
    syntaxAdvice message =
      topicLines (Topic.all.find? (Topic.mentionedIn message.toList)) := by
  have hchain : syntaxAdvice message =
      if Topic.step.mentionedIn message.toList then Topic.step.lines
      else if Topic.access.mentionedIn message.toList then Topic.access.lines
      else if Topic.comment.mentionedIn message.toList then Topic.comment.lines
      else if Topic.ending.mentionedIn message.toList then Topic.ending.lines
      else if Topic.semicolon.mentionedIn message.toList then Topic.semicolon.lines
      else [] := by
    simp only [Topic.mentionedIn, Topic.phrases, List.any_cons, List.any_nil, Bool.or_false]
    rfl
  rw [hchain, Topic.all]
  simp only [List.find?]
  cases Topic.step.mentionedIn message.toList
  · cases Topic.access.mentionedIn message.toList
    · cases Topic.comment.mentionedIn message.toList
      · cases Topic.ending.mentionedIn message.toList
        · cases Topic.semicolon.mentionedIn message.toList <;> rfl
        · rfl
      · rfl
    · rfl
  · rfl

/-- The advice given for a token that is not the one wanted. -/
theorem advice_unexpected (wanted : Wanted) (token : Token) :
    advice (Fault.unexpected wanted (.token token)).failure =
      topicLines (topic? wanted token.kind token.lexeme) := by
  have hadvice : advice (Fault.unexpected wanted (.token token)).failure =
      syntaxAdvice (Fault.unexpected wanted (.token token)).message := rfl
  rw [hadvice, syntaxAdvice_eq, topic?]
  exact congrArg (fun called => topicLines (Topic.all.find? called))
    (funext fun topic => topic.mentionedIn_message wanted token)

/-! ## Advice and the text found -/

open Analysis

/--
Of two texts that differ in the spelling of one token, and the first of which is refused
there for its syntax, the second is refused there as well, with the same token wanted.
They are given the same advice exactly if the first topic that the wanted token, the
kind found and the spelling call for is the same.
-/
theorem advice_of_respelled {front rest : List Token} {token other : Token} {fault : Fault}
    {stopped : Analyzer}
    (h : (Analyzer.ofTokens (front ++ token :: rest)).program = (.error fault, stopped))
    (hstopped : stopped.rest = token :: rest) (hsyntactic : fault.kind = .syntactic)
    (hkind : other.kind = token.kind) :
    ∃ wanted, fault = .unexpected wanted (.token token) ∧
      (Analyzer.ofTokens (front ++ other :: rest)).program =
        (.error (.unexpected wanted (.token other)), { stopped with rest := other :: rest }) ∧
      advice fault.failure = topicLines (topic? wanted token.kind token.lexeme) ∧
      (advice (Fault.unexpected wanted (.token other)).failure = advice fault.failure ↔
        topic? wanted token.kind other.lexeme = topic? wanted token.kind token.lexeme) := by
  obtain ⟨wanted, rfl, hother⟩ := program_respelled h hstopped hsyntactic hkind
  refine ⟨wanted, rfl, hother, advice_unexpected wanted token, ?_⟩
  rw [advice_unexpected, advice_unexpected, topicLines_inj, hkind]

theorem advice_of_respelled_name :
    let place : Position := ⟨1, 9⟩
    let front : List Token :=
      [⟨.word .usingWord, "using", ⟨1, 1⟩⟩, ⟨.identifier, "A", ⟨1, 7⟩⟩]
    let token : Token := ⟨.identifier, "x", place⟩
    let other : Token := ⟨.identifier, "y", place⟩
    let wanted : Wanted := .kind .semicolon
    (Analyzer.ofTokens (front ++ [other])).program =
        (.error (.unexpected wanted (.token other)), ⟨⟨1, 7⟩, [other], .empty⟩) ∧
      advice (Fault.unexpected wanted (.token other)).failure =
        advice (Fault.unexpected wanted (.token token)).failure := by
  intro place front token other wanted
  have hprogram : (Analyzer.ofTokens (front ++ [token])).program =
      (.error (.unexpected wanted (.token token)), ⟨⟨1, 7⟩, [token], .empty⟩) := by rfl
  have hkind : other.kind = token.kind := rfl
  obtain ⟨same, hsame, hother, _, hadvice⟩ := advice_of_respelled hprogram rfl rfl hkind
  cases hsame
  exact ⟨hother, hadvice.mpr (by decide)⟩

/-- A name that is spelled like a comment is given the advice on comments. -/
theorem advice_mistakes_name :
    let front : List Token :=
      [⟨.word .usingWord, "using", ⟨1, 1⟩⟩, ⟨.identifier, "A", ⟨1, 7⟩⟩]
    let token : Token := ⟨.identifier, "x", ⟨1, 9⟩⟩
    let other : Token := ⟨.identifier, "COMMENT", ⟨1, 9⟩⟩
    ∃ fault shown : Fault, analyze (front ++ [token]) = .error fault ∧
      analyze (front ++ [other]) = .error shown ∧
      fault.kind = .syntactic ∧ fault.position = token.position ∧
      shown.kind = .syntactic ∧ shown.position = other.position ∧
      advice fault.failure = [hint "Help: Did you forget a ';'?"] ∧
      advice shown.failure = [hint "Help: Comments are not allowed at this position."] ∧
      advice fault.failure ≠ advice shown.failure := by
  intro front token other
  refine ⟨.unexpected (.kind .semicolon) (.token token),
    .unexpected (.kind .semicolon) (.token other), by rfl, by rfl, rfl, rfl, rfl, rfl, ?_⟩
  rw [advice_unexpected, advice_unexpected]
  decide

end Report

end Classlet
