import Classlet.Proofs.Command.Runs
import Mathlib.Data.List.Induction

/-!
# Sessions

What an editor session comes to, told from its lines alone.  The buffer at a prompt
consists of the lines collected since the last order that clears it, and each turn
leaves it that way: the invariant is one equation, kept by every line on which the
session goes on.  The prompt, the reactions to orders and the end of a session are
then functions of the collected lines.
-/

namespace Classlet.Command.Editor

open Console (Notice Transcript plain cyan)
open Files (AtDesk Desk InputLine)

/-! ## Lines -/

/-- A line without the blanks at its ends. -/
def trimmed (line : String) : List Char :=
  Text.trim line.toList

def IsOrder (line : String) : Prop :=
  (trimmed line).head? = some ':'

def firstWord (line : String) : String :=
  String.ofList ((trimmed line).takeWhile (!Text.isBlank ·))

/-- What stands behind the first word. -/
def argument (line : String) : String :=
  String.ofList (Text.trim ((trimmed line).dropWhile (!Text.isBlank ·)))

def Clears (line : String) : Prop :=
  firstWord line = ":clear"

def Quits (line : String) : Prop :=
  firstWord line ∈ [":quit", ":q", ":exit"]

def Checks (line : String) : Prop :=
  firstWord line ∈ [":check", ":c"]

def SavesTo (line path : String) : Prop :=
  firstWord line = ":save" ∧ argument line = path ∧ path.isEmpty = false

instance : DecidablePred IsOrder := fun line =>
  inferInstanceAs (Decidable ((trimmed line).head? = some ':'))

instance : DecidablePred Clears := fun line =>
  inferInstanceAs (Decidable (firstWord line = ":clear"))

instance : DecidablePred Quits := fun line =>
  inferInstanceAs (Decidable (firstWord line ∈ [":quit", ":q", ":exit"]))

/-! ## Collected lines -/

/-- The lines behind the last one that clears. -/
def sinceClear (lines : List String) : List String :=
  (lines.reverse.takeWhile fun line => ¬ Clears line).reverse

/-- The text collected since the last line that clears; orders are left out. -/
def collected (lines : List String) : String :=
  String.join (((sinceClear lines).filter fun line => ¬ IsOrder line).map completed)

def texts (lines : List String) : List InputLine :=
  lines.map InputLine.text

variable {line : String}

theorem isOrder_of_firstWord {rest : List Char}
    (h : (firstWord line).toList = ':' :: rest) :
    IsOrder line := by
  rw [firstWord, String.toList_ofList] at h
  unfold IsOrder
  cases htrimmed : trimmed line with
  | nil =>
      rw [htrimmed] at h
      cases h
  | cons char chars =>
      rw [htrimmed, List.takeWhile_cons] at h
      split at h
      · cases h
        rfl
      · cases h

theorem Clears.isOrder (h : Clears line) : IsOrder line :=
  isOrder_of_firstWord (congrArg String.toList h)

theorem sinceClear_append (read : List String) (line : String) :
    sinceClear (read ++ [line]) = if Clears line then [] else sinceClear read ++ [line] := by
  by_cases hclears : Clears line <;> simp [sinceClear, hclears]

theorem collected_of_clears (read : List String) (h : Clears line) :
    collected (read ++ [line]) = "" := by
  simp [collected, sinceClear_append, h]

theorem collected_of_order (read : List String) (horder : IsOrder line)
    (h : ¬ Clears line) :
    collected (read ++ [line]) = collected read := by
  simp [collected, sinceClear_append, h, horder]

theorem collected_of_text (read : List String) (h : ¬ IsOrder line) :
    collected (read ++ [line]) = collected read ++ completed line := by
  have hclears : ¬ Clears line := fun hclears => h hclears.isOrder
  simp [collected, sinceClear_append, hclears, h, String.join_append]

theorem completed_ends (line : String) : (completed line).toList.getLast? = some '\n' := by
  unfold completed
  split
  · assumption
  · simp

theorem collected_ends (read : List String) :
    collected read = "" ∨ (collected read).toList.getLast? = some '\n' := by
  -- Lines are collected at the end, so the last one is split off.
  induction read using List.reverseRecOn with
  | nil => exact .inl rfl
  | append_singleton read line ih =>
      by_cases horder : IsOrder line
      · by_cases hclears : Clears line
        · exact .inl (collected_of_clears read hclears)
        · rw [collected_of_order read horder hclears]
          exact ih
      · refine .inr ?_
        rw [collected_of_text read horder, String.toList_append, List.getLast?_append,
          completed_ends]
        rfl

/-! ## Reactions -/

/-- The reaction to a line at a desk, and the desk it leaves. -/
def reactAt (buffer : String) (now : Desk) (line : String) : Reaction × Desk :=
  (react buffer (.text line) : AtDesk Reaction).run now

/-- The buffer that an order leaves, if the session goes on. -/
def buffer? (buffer : String) : Order → Option String
  | .add line => some (buffer ++ completed line)
  | .quit => none
  | .clear => some ""
  | _ => some buffer

theorem obey_buffer (buffer : String) (order : Order) (now : Desk) :
    ((obey buffer order : AtDesk Reaction).run now).1.buffer? = buffer? buffer order := by
  cases order <;> rfl

theorem buffer?_named (buffer line behind : String) :
    buffer? buffer (.named (firstWord line) behind) =
      if Quits line then none else if Clears line then some "" else some buffer := by
  unfold Order.named
  split <;> simp_all [buffer?, Quits, Clears]

theorem ofLine_eq (line : String) :
    Order.ofLine line =
      if IsOrder line then .named (firstWord line) (argument line) else .add line :=
  rfl

/-- The buffer holds the collected lines again, whatever the line was. -/
theorem reactAt_buffer (read : List String) (now : Desk) (h : ¬ Quits line) :
    (reactAt (collected read) now line).1.buffer? = some (collected (read ++ [line])) := by
  rw [reactAt, react, obey_buffer, ofLine_eq]
  by_cases horder : IsOrder line
  · rw [if_pos horder, buffer?_named, if_neg h]
    by_cases hclears : Clears line
    · rw [if_pos hclears, collected_of_clears read hclears]
    · rw [if_neg hclears, collected_of_order read horder hclears]
  · rw [if_neg horder, collected_of_text read horder]
    rfl

theorem ofLine_of_firstWord {word : String} {rest : List Char} (h : firstWord line = word)
    (hcolon : word.toList = ':' :: rest) : Order.ofLine line = .named word (argument line) := by
  have horder : IsOrder line := isOrder_of_firstWord (h ▸ hcolon)
  rw [ofLine_eq, if_pos horder, h]

theorem reactAt_quits (buffer : String) (now : Desk) (h : Quits line) :
    reactAt buffer now line = (⟨none, farewell⟩, now) := by
  have hquit : Order.ofLine line = .quit := by
    simp only [Quits, List.mem_cons, List.not_mem_nil, or_false] at h
    rcases h with h | h | h <;> exact ofLine_of_firstWord h rfl
  rw [reactAt, react, hquit]
  rfl

theorem reactAt_checks (buffer : String) (now : Desk) (h : Checks line) :
    reactAt buffer now line = (⟨some buffer, checkReport buffer⟩, now) := by
  have hcheck : Order.ofLine line = .check := by
    simp only [Checks, List.mem_cons, List.not_mem_nil, or_false] at h
    rcases h with h | h <;> exact ofLine_of_firstWord h rfl
  rw [reactAt, react, hcheck]
  rfl

theorem reactAt_saves {path : String} (buffer : String) (now : Desk)
    (h : SavesTo line path) :
    reactAt buffer now line =
      match now.write path buffer with
      | (.ok (), after) => (⟨some buffer, .say [[plain s!"Saved input to {path}"]]⟩, after)
      | (.error fault, _) =>
          (⟨some buffer, Batch.complaint s!"Failed to write {path}: {fault.message}"⟩, now) := by
  obtain ⟨hword, rfl, hpath⟩ := h
  have hsave : Order.ofLine line = .save (argument line) := ofLine_of_firstWord hword rfl
  simp only [reactAt, react, hsave, obey, bind_run, save, hpath, Bool.false_eq_true, if_false,
    writeFile_run, Desk.write]
  cases now.folder.write (argument line) buffer <;> rfl

/-! ## Turns -/

/-- What is said from a prompt on, and the desk that the session leaves. -/
def continued (buffer : String) (now : Desk) (rest : List InputLine) : Transcript × Desk :=
  (sessionFrom buffer rest : AtDesk Transcript).run now

/-- The same with something said ahead. -/
def following (said : Transcript) (result : Transcript × Desk) : Transcript × Desk :=
  (said ++ result.1, result.2)

theorem following_following (first second : Transcript) (result : Transcript × Desk) :
    following first (following second result) = following (first ++ second) result := by
  simp [following, Transcript.append_assoc]

/-- Each turn begins with the prompt and the reaction, which may be the last thing said. -/
theorem continued_cons (buffer : String) (now : Desk) (line : String)
    (rest : List InputLine) :
    continued buffer now (.text line :: rest) =
      following (prompt buffer ++ (reactAt buffer now line).1.transcript)
        (match (reactAt buffer now line).1.buffer? with
        | none => (.empty, (reactAt buffer now line).2)
        | some next => continued next (reactAt buffer now line).2 rest) := by
  rw [continued, sessionFrom, bind_run, ← reactAt]
  cases (reactAt buffer now line).1.buffer? with
  | none =>
      simp only [following, Transcript.append_empty]
      rfl
  | some next => rfl

theorem continued_quits (buffer : String) (now : Desk) (rest : List InputLine)
    (h : Quits line) :
    continued buffer now (.text line :: rest) = (prompt buffer ++ farewell, now) := by
  rw [continued_cons, reactAt_quits buffer now h]
  simp only [following, Transcript.append_empty]

/-- A line on which the session goes on leads from one prompt to the next. -/
theorem continued_text (read : List String) (now : Desk) (rest : List InputLine)
    (h : ¬ Quits line) :
    continued (collected read) now (.text line :: rest) =
      following (prompt (collected read) ++ (reactAt (collected read) now line).1.transcript)
        (continued (collected (read ++ [line])) (reactAt (collected read) now line).2 rest) := by
  rw [continued_cons, reactAt_buffer read now h]

/-- Lines on which the session goes on lead to the prompt at which they are collected. -/
theorem exists_continued (more read : List String) (now : Desk)
    (h : ∀ line ∈ more, ¬ Quits line) :
    ∃ said after, ∀ rest, continued (collected read) now (texts more ++ rest) =
      following said (continued (collected (read ++ more)) after rest) := by
  induction more generalizing read now with
  | nil => exact ⟨.empty, now, fun rest => by rw [List.append_nil]; rfl⟩
  | cons line more ih =>
      obtain ⟨said, after, hmore⟩ :=
        ih (read ++ [line]) (reactAt (collected read) now line).2
        fun other hother => h other (List.mem_cons_of_mem line hother)
      refine ⟨prompt (collected read) ++ (reactAt (collected read) now line).1.transcript ++ said,
        after, fun rest => ?_⟩
      have hline : ¬ Quits line := h line List.mem_cons_self
      change continued (collected read) now (.text line :: (texts more ++ rest)) = _
      rw [continued_text read now _ hline, hmore rest, following_following, List.append_assoc,
        List.singleton_append]

/-! ## Prompts -/

theorem foldl_braceStep (tokens : List Token) (depth : Int) :
    tokens.foldl braceStep depth =
      depth + tokens.countP (·.kind = .leftBrace) - tokens.countP (·.kind = .rightBrace) := by
  induction tokens generalizing depth with
  | nil => simp
  | cons token tokens ih =>
      rw [List.foldl_cons, ih, List.countP_cons, List.countP_cons]
      unfold braceStep
      split
      · rename_i hkind
        simp [hkind]
        omega
      · rename_i hkind
        simp [hkind]
        omega
      · rename_i hleft hright
        rw [if_neg (by simpa using hleft), if_neg (by simpa using hright)]
        simp

/-- After some tokens the count of braces is no further from 0 than there are tokens. -/
theorem natAbs_foldl_braceStep_le (tokens : List Token) :
    (tokens.foldl braceStep 0).natAbs ≤ tokens.length := by
  have hleft : tokens.countP (·.kind = .leftBrace) ≤ tokens.length := List.countP_le_length
  have hright : tokens.countP (·.kind = .rightBrace) ≤ tokens.length :=
    List.countP_le_length
  rw [foldl_braceStep]
  omega

/-- A text has more opening than closing braces among its tokens. -/
def IsOpen (text : String) : Prop :=
  (Scan.tokens text).countP (·.kind = .rightBrace) <
    (Scan.tokens text).countP (·.kind = .leftBrace)

instance : DecidablePred IsOpen := fun _ => inferInstanceAs (Decidable (_ < _))

theorem promptText_eq (buffer : String) :
    promptText buffer = if IsOpen buffer then "... > " else "sharp> " := by
  unfold promptText braceDepth IsOpen
  rw [foldl_braceStep]
  congr 1
  simp only [eq_iff_iff]
  omega

theorem exists_continued_eq (buffer : String) (now : Desk) (rest : List InputLine) :
    ∃ heard, (continued buffer now rest).1 = prompt buffer ++ heard := by
  cases rest with
  | nil => exact ⟨ending, rfl⟩
  | cons line rest =>
      cases line with
      | text line =>
          rw [continued_cons]
          exact ⟨_, Transcript.append_assoc _ _ _⟩
      | unreadable => exact ⟨_, rfl⟩

/-! ## Checks -/

/-- A check says, log lines apart, what a batch run says of a text with its symbols. -/
theorem checkReport_unlogged {options : Options} {held : Desk} {buffer : String}
    (hformat : options.format = .table) (htokens : options.tokens = false)
    (hsymbols : options.symbols = true) (hsave : options.save? = none)
    (hreads : Batch.textAt held options = .ok buffer) :
    (checkReport buffer).unlogged =
      ((Batch.run options : AtDesk Result).run held).1.transcript.unlogged := by
  have hgets : Batch.Gets held options buffer held :=
    ⟨hreads, by simp [Batch.savedAt, hsave]⟩
  rw [Batch.run_of_gets hgets, Batch.report_of_table hformat]
  simp [checkReport, Batch.preface, Batch.savedTold, scanLog, noteLog, Batch.countLog, htokens,
    hsymbols, hsave, Report.verdict_eq_shown]

/-! ## The session -/

/-- What holds at the prompt after the lines `read`, at the desk `now`. -/
structure Prompted (read : List String) (now : Desk) : Prop where
  ends : collected read = "" ∨ (collected read).toList.getLast? = some '\n'
  /-- Only lines that clear, and no other orders, change what is collected. -/
  keeps : ∀ line, IsOrder line → ¬ Clears line → collected (read ++ [line]) = collected read
  clears : ∀ line, Clears line → collected (read ++ [line]) = ""
  prompts : ∀ rest, ∃ heard, (continued (collected read) now rest).1 =
    scanLog (collected read) ++
      .write [cyan (if IsOpen (collected read) then "... > " else "sharp> ")] ++ heard
  /-- So 32 bits are enough to count the braces of fewer than 2 ^ 31 tokens. -/
  counts : ∀ counted, counted <+: Scan.tokens (collected read) →
    (counted.foldl braceStep 0).natAbs ≤ counted.length
  /-- The session goes on with what is collected then. -/
  goesOn : ∀ line rest, ¬ Quits line →
    continued (collected read) now (.text line :: rest) =
      following (prompt (collected read) ++ (reactAt (collected read) now line).1.transcript)
        (continued (collected (read ++ [line])) (reactAt (collected read) now line).2 rest)
  saves : ∀ line path, SavesTo line path → reactAt (collected read) now line =
    match now.write path (collected read) with
    | (.ok (), after) =>
        (⟨some (collected read), .say [[plain s!"Saved input to {path}"]]⟩, after)
    | (.error fault, _) =>
        (⟨some (collected read),
          Batch.complaint s!"Failed to write {path}: {fault.message}"⟩, now)
  saved : ∀ path after, now.write path (collected read) = (.ok (), after) →
    now.folder.Keeps path → after.folder.read path = .ok (collected read)
  /-- Log lines apart, a check says what a batch run with the symbols says. -/
  checks : ∀ line, Checks line → ∃ shown,
    reactAt (collected read) now line = (⟨some (collected read), shown⟩, now) ∧
      ∀ options held, options.format = .table → options.tokens = false →
        options.symbols = true → options.save? = none →
        Batch.textAt held options = .ok (collected read) →
        shown.unlogged = ((Batch.run options : AtDesk Result).run held).1.transcript.unlogged
  /-- What stands behind a line that quits is not looked at. -/
  quits : ∀ line rest, Quits line →
    continued (collected read) now (.text line :: rest) =
      (prompt (collected read) ++ farewell, now)

theorem prompted (read : List String) (now : Desk) : Prompted read now where
  ends := collected_ends read
  keeps _ horder hclears := collected_of_order read horder hclears
  clears _ hclears := collected_of_clears read hclears
  prompts rest := by
    obtain ⟨heard, hheard⟩ := exists_continued_eq (collected read) now rest
    exact ⟨heard, by rw [hheard, prompt, promptText_eq]⟩
  counts counted _ := natAbs_foldl_braceStep_le counted
  goesOn _ rest hquits := continued_text read now rest hquits
  saves _ _ hsaves := reactAt_saves (collected read) now hsaves
  saved _ _ hwrite hkeeps :=
    Files.Folder.read_of_write hkeeps (folder_write_of_desk_write hwrite)
  checks _ hchecks := ⟨_, reactAt_checks (collected read) now hchecks,
    fun _ _ hformat htokens hsymbols hsave hreads =>
      checkReport_unlogged hformat htokens hsymbols hsave hreads⟩
  quits _ rest hquits := continued_quits (collected read) now rest hquits

/--
A session that has read some lines, none of which quits, stands at a prompt with the
collected lines in its buffer, and behaves there as it should.  A file to which the buffer
is saved is apart from what the session says: at a desk no path leads to an output.
-/
theorem session_at_prompt (read : List String) (hgoes : ∀ line ∈ read, ¬ Quits line)
    (desk : Desk) :
    ∃ said now,
      (∀ rest, (session (texts read ++ rest) : AtDesk Transcript).run desk =
        following said (continued (collected read) now rest)) ∧
      Prompted read now := by
  obtain ⟨said, now, hread⟩ := exists_continued read [] desk hgoes
  refine ⟨greeting ++ said, now, fun rest => ?_, prompted read now⟩
  rw [← following_following]
  exact congrArg (following greeting) (hread rest)

theorem session_at_prompt_cleared :
    let read := ["class A \x7b\n", " :clear\n", ":fly\n", "int x"]
    ∃ said now, ∀ rest,
      (session (texts read ++ rest) : AtDesk Transcript).run ⟨.empty, .empty⟩ =
        following said (continued "int x\n" now rest) := by
  intro read
  have hcollected : collected read = "int x\n" := by decide
  obtain ⟨said, now, hread, -⟩ := session_at_prompt read (by decide) ⟨.empty, .empty⟩
  exact ⟨said, now, hcollected ▸ hread⟩

end Classlet.Command.Editor
