import LlmWikiServe.Foundation.Text

/-!
# Windows command lines

Process discovery splits a recorded command line into the arguments of the process.  What a run
of backslashes means depends on what is behind it, so the scanner is told by the runs it meets.
-/

namespace LlmWikiServe

/-! ## The scanner -/

/-- The arguments so far, the one being read, and whether it is quoted or begun. -/
structure CommandScan where
  args : List Text := []
  current : Text := []
  inQuotes : Bool := false
  hadToken : Bool := false
  deriving DecidableEq

def isSlash (char : Char) : Bool := char = '\\'

/-- `char in " \t"` -/
def isBlank (char : Char) : Bool := char ∈ [' ', '\t']

namespace CommandScan

/-- The argument being read, with more characters. -/
def take (scan : CommandScan) (text : Text) : CommandScan :=
  { scan with current := scan.current ++ text, hadToken := scan.hadToken || !text.isEmpty }

/-- `in_quotes = not in_quotes` -/
def toggle (scan : CommandScan) : CommandScan :=
  { scan with inQuotes := !scan.inQuotes, hadToken := true }

/-- A blank outside of quotes ends the argument being read, if there is one. -/
def endToken (scan : CommandScan) : CommandScan :=
  if scan.hadToken then
    { scan with args := scan.args ++ [scan.current], current := [], hadToken := false }
  else scan

/-- One round of the loop: the next state, and what is left of the command line. -/
def round (scan : CommandScan) (char : Char) (rest : Text) : CommandScan × Text :=
  if isBlank char && !scan.inQuotes then (scan.endToken, rest)
  else if isSlash char then
    let slashCount := (rest.takeWhile isSlash).length + 1
    match rest.dropWhile isSlash with
    | '"' :: after =>
        let slashes := scan.take (List.replicate (slashCount / 2) '\\')
        if slashCount % 2 = 1 then (slashes.take ['"'], after) else (slashes.toggle, after)
    | after => (scan.take (List.replicate slashCount '\\'), after)
  else if char = '"' then (scan.toggle, rest)
  else (scan.take [char], rest)

theorem round_length (scan : CommandScan) (char : Char) (rest : Text) :
    (scan.round char rest).2.length ≤ rest.length := by
  have left : (rest.dropWhile isSlash).length ≤ rest.length :=
    (List.dropWhile_suffix isSlash).length_le
  unfold round
  split_ifs with blank slash
  · exact le_rfl
  · dsimp only
    split
    next after shape =>
      rw [shape, List.length_cons] at left
      split_ifs <;> (dsimp only; omega)
    next => exact left
  · exact le_rfl
  · exact le_rfl

/-- The rounds until the command line is over. -/
def split (scan : CommandScan) : Text → List Text
  | [] => if scan.hadToken then scan.args ++ [scan.current] else scan.args
  | char :: rest => (scan.round char rest).1.split (scan.round char rest).2
termination_by text => text.length
decreasing_by exact Nat.lt_succ_of_le (round_length scan char rest)

end CommandScan

/-- `split_windows_command_line(command_line)` -/
def splitWindowsCommandLine (commandLine : Text) : List Text := CommandScan.split {} commandLine

/-! ## Quoting -/

/-- The characters of an argument behind a run of backslashes. -/
def escapeArgument (quoted : Bool) : Nat → Text → Text
  | count, [] => List.replicate (if quoted then 2 * count else count) '\\'
  | count, char :: rest =>
      if char = '\\' then escapeArgument quoted (count + 1) rest
      else if char = '"' then
        List.replicate (2 * count + 1) '\\' ++ '"' :: escapeArgument quoted 0 rest
      else List.replicate count '\\' ++ char :: escapeArgument quoted 0 rest

/-- The quoting rule of the C runtime. -/
def quoteArgument (arg : Text) : Text :=
  if arg = [] ∨ arg.any isBlank then '"' :: (escapeArgument true 0 arg ++ ['"'])
  else escapeArgument false 0 arg

def quotedCommandLine (args : List Text) : Text := Text.join [' '] (args.map quoteArgument)

/-! ## The scanner over quoted arguments -/

namespace CommandScan

@[simp]
theorem take_inQuotes (scan : CommandScan) (text : Text) :
    (scan.take text).inQuotes = scan.inQuotes := rfl

@[simp]
theorem take_nil (scan : CommandScan) : scan.take [] = scan := by
  cases scan
  simp [take]

@[simp]
theorem take_take (scan : CommandScan) (front back : Text) :
    (scan.take front).take back = scan.take (front ++ back) := by
  cases front <;> cases back <;> simp [take]

theorem split_cons (scan : CommandScan) (char : Char) (rest : Text) :
    scan.split (char :: rest) = (scan.round char rest).1.split (scan.round char rest).2 := by
  rw [split]

variable {scan : CommandScan}

theorem split_plain {char : Char} {rest : Text} (slash : char ≠ '\\') (mark : char ≠ '"')
    (inside : scan.inQuotes = true ∨ isBlank char = false) :
    scan.split (char :: rest) = (scan.take [char]).split rest := by
  have kept : ¬(isBlank char && !scan.inQuotes) = true := by
    rcases inside with inside | inside <;> simp [inside]
  have step : scan.round char rest = (scan.take [char], rest) := by
    rw [round, if_neg kept, if_neg (by simpa [isSlash] using slash), if_neg mark]
  rw [split_cons, step]

theorem split_mark {rest : Text} : scan.split ('"' :: rest) = scan.toggle.split rest := by
  rw [split_cons]
  rfl

theorem takeWhile_slashes {count : Nat} {tail : Text} (stops : tail.head? ≠ some '\\') :
    (List.replicate count '\\' ++ tail).takeWhile isSlash = List.replicate count '\\' := by
  rw [List.takeWhile_append_of_pos (fun char member => by
    rw [List.eq_of_mem_replicate member]
    rfl)]
  cases tail with
  | nil => simp
  | cons next after => simpa [isSlash] using stops

theorem dropWhile_slashes {count : Nat} {tail : Text} (stops : tail.head? ≠ some '\\') :
    (List.replicate count '\\' ++ tail).dropWhile isSlash = tail := by
  rw [List.dropWhile_append_of_pos (fun char member => by
    rw [List.eq_of_mem_replicate member]
    rfl)]
  cases tail with
  | nil => rfl
  | cons next after => exact List.dropWhile_cons_of_neg (by simpa [isSlash] using stops)

theorem round_slashes_mark {count : Nat} {rest : Text} :
    scan.round '\\' (List.replicate count '\\' ++ '"' :: rest) =
      (if (count + 1) % 2 = 1 then scan.take (List.replicate ((count + 1) / 2) '\\' ++ ['"'])
        else (scan.take (List.replicate ((count + 1) / 2) '\\')).toggle, rest) := by
  rw [round, takeWhile_slashes (by simp), dropWhile_slashes (by simp), List.length_replicate]
  dsimp only
  rw [take_take]
  split_ifs <;> first | rfl | contradiction

/-- A run of backslashes with a quotation mark behind it. -/
theorem split_slashes_mark {count : Nat} {rest : Text} :
    scan.split (List.replicate count '\\' ++ '"' :: rest) =
      (if count % 2 = 1 then scan.take (List.replicate (count / 2) '\\' ++ ['"'])
        else (scan.take (List.replicate (count / 2) '\\')).toggle).split rest := by
  cases count with
  | zero => simpa using split_mark
  | succ count =>
      rw [List.replicate_succ, List.cons_append, split_cons, round_slashes_mark]

theorem round_slashes {count : Nat} {tail : Text} (slash : tail.head? ≠ some '\\')
    (mark : tail.head? ≠ some '"') :
    scan.round '\\' (List.replicate count '\\' ++ tail) =
      (scan.take (List.replicate (count + 1) '\\'), tail) := by
  have blank : ¬(isBlank '\\' && !scan.inQuotes) = true := by simp [isBlank]
  rw [round, takeWhile_slashes slash, dropWhile_slashes slash, List.length_replicate,
    if_neg blank, if_pos (show isSlash '\\' = true from rfl)]
  dsimp only
  split
  next => exact absurd rfl mark
  next => rfl

/-- A run of backslashes with something else behind it. -/
theorem split_slashes {count : Nat} {tail : Text} (slash : tail.head? ≠ some '\\')
    (mark : tail.head? ≠ some '"') :
    scan.split (List.replicate count '\\' ++ tail) =
      (scan.take (List.replicate count '\\')).split tail := by
  cases count with
  | zero => simp
  | succ count =>
      rw [List.replicate_succ, List.cons_append, split_cons, round_slashes slash mark]
      rfl

/-- The escaped characters of an argument are read as the argument, where the end of it is. -/
theorem split_escapeArgument {quoted : Bool} {tail after : Text}
    {finish : CommandScan → CommandScan} (inside : scan.inQuotes = quoted)
    (ends : ∀ (count : Nat) (scan : CommandScan), scan.inQuotes = quoted →
      scan.split (List.replicate (if quoted then 2 * count else count) '\\' ++ tail) =
        (finish (scan.take (List.replicate count '\\'))).split after)
    {arg : Text} (count : Nat) (fits : quoted = true ∨ ∀ char ∈ arg, isBlank char = false) :
    scan.split (escapeArgument quoted count arg ++ tail) =
      (finish (scan.take (List.replicate count '\\' ++ arg))).split after := by
  induction arg generalizing count scan with
  | nil => simpa [escapeArgument] using ends count scan inside
  | cons char rest inductionHypothesis =>
      have restFits : quoted = true ∨ ∀ char ∈ rest, isBlank char = false :=
        fits.imp_right fun blanks other member => blanks other (List.mem_cons_of_mem _ member)
      rw [escapeArgument]
      split_ifs with slash mark
      · rw [inductionHypothesis inside _ restFits, slash, List.replicate_succ']
        simp
      · rw [mark, List.append_assoc, List.cons_append, split_slashes_mark,
          if_pos (by omega), inductionHypothesis (by simpa using inside) 0 restFits]
        have half : (2 * count + 1) / 2 = count := by omega
        simp [half]
      · have plain : (scan.take (List.replicate count '\\')).inQuotes = true ∨
            isBlank char = false := by
          rw [take_inQuotes, inside]
          exact fits.imp_right fun blanks => blanks char List.mem_cons_self
        rw [List.append_assoc, List.cons_append, split_slashes (by simpa using slash)
          (by simpa using mark), split_plain slash mark plain,
          inductionHypothesis (by simpa using inside) 0 restFits]
        simp

/-- A quoted argument up to the blank behind it, or up to the end. -/
theorem split_quoteArgument {args : List Text} {arg tail : Text}
    (behind : tail = [] ∨ ∃ rest, tail = ' ' :: rest) :
    CommandScan.split { args := args } (quoteArgument arg ++ tail) =
      CommandScan.split { args := args, current := arg, hadToken := true } tail := by
  have slash : tail.head? ≠ some '\\' := by
    rcases behind with rfl | ⟨rest, rfl⟩ <;> simp
  have mark : tail.head? ≠ some '"' := by
    rcases behind with rfl | ⟨rest, rfl⟩ <;> simp
  unfold quoteArgument
  split_ifs with needs
  · have ends : ∀ (count : Nat) (scan : CommandScan), scan.inQuotes = true →
        scan.split (List.replicate (if true then 2 * count else count) '\\' ++ '"' :: tail) =
          (scan.take (List.replicate count '\\')).toggle.split tail := by
      intro count scan inside
      have half : 2 * count / 2 = count := by omega
      rw [if_pos rfl, split_slashes_mark, if_neg (by omega), half]
    have opened : (toggle { args := args }).inQuotes = true := rfl
    rw [List.cons_append, split_mark, List.append_assoc, List.singleton_append,
      split_escapeArgument opened ends 0 (.inl rfl)]
    simp [take, toggle]
  · push Not at needs
    have ends : ∀ (count : Nat) (scan : CommandScan), scan.inQuotes = false →
        scan.split (List.replicate (if false then 2 * count else count) '\\' ++ tail) =
          (id (scan.take (List.replicate count '\\'))).split tail :=
      fun count scan inside => split_slashes slash mark
    have fits : false = true ∨ ∀ char ∈ arg, isBlank char = false := by
      refine .inr fun char member => ?_
      have blanks := needs.2
      rw [Ne, List.any_eq_true, not_exists] at blanks
      simpa [member] using blanks char
    have outside : ({ args := args } : CommandScan).inQuotes = false := rfl
    have begun : arg.isEmpty = false := by simpa using needs.1
    rw [split_escapeArgument outside ends 0 fits]
    simp [take, begun]

end CommandScan

open CommandScan in
theorem split_quotedCommandLine (before args : List Text) :
    CommandScan.split { args := before } (quotedCommandLine args) = before ++ args := by
  induction args generalizing before with
  | nil => simp [quotedCommandLine, Text.join, CommandScan.split]
  | cons arg rest inductionHypothesis =>
      cases rest with
      | nil =>
          have line : quotedCommandLine [arg] = quoteArgument arg ++ [] := by
            simp [quotedCommandLine, Text.join]
          rw [line, split_quoteArgument (.inl rfl), CommandScan.split]
          rfl
      | cons next rest =>
          have line : quotedCommandLine (arg :: next :: rest) =
              quoteArgument arg ++ ' ' :: quotedCommandLine (next :: rest) := by
            simp [quotedCommandLine, Text.join, List.intercalate]
          rw [line, split_quoteArgument (.inr ⟨_, rfl⟩), split_cons]
          calc CommandScan.split { args := before ++ [arg] } (quotedCommandLine (next :: rest))
              = before ++ [arg] ++ (next :: rest) := inductionHypothesis _
            _ = before ++ arg :: next :: rest := by simp

/-- Splitting a command line gives the arguments back that it was quoted from. -/
theorem splitWindowsCommandLine_quoted (args : List Text) :
    splitWindowsCommandLine (quotedCommandLine args) = args :=
  split_quotedCommandLine [] args

end LlmWikiServe
