import FileShell.LineSource
import FileShell.Proofs.Utf8Ascii
import Mathlib.Data.List.DropRight

namespace FileShell

namespace Text

def withoutReturns (t : Text) : Text := t.rdropWhile (· = '\r')

/-- What stands between the newlines of a text, nothing behind the last of them being no line. -/
def lines (t : Text) : List Text :=
  let pieces := t.splitOn '\n'
  (if pieces.getLast? = some [] then pieces.dropLast else pieces).map withoutReturns

/-- The lines that end in a newline. -/
def closedLines (t : Text) : List Text := (t.splitOn '\n').dropLast.map withoutReturns

variable {front : Text}

theorem lines_of_newline_notMem (h : '\n' ∉ front) :
    lines front = if front = [] then [] else [withoutReturns front] := by
  unfold lines
  rw [List.splitOn_eq_singleton h]
  by_cases hfront : front = [] <;> simp [hfront]

theorem lines_append_newline (h : '\n' ∉ front) (rest : Text) :
    lines (front ++ '\n' :: rest) = withoutReturns front :: lines rest := by
  unfold lines
  rw [List.splitOn_append_cons_self_of_not_mem h]
  obtain ⟨piece, more, hpieces⟩ := List.exists_cons_of_ne_nil (List.splitOn_ne_nil '\n' rest)
  simp only [hpieces, List.getLast?_cons_cons, List.dropLast_cons_cons]
  split_ifs <;> rfl

theorem closedLines_of_newline_notMem (h : '\n' ∉ front) : closedLines front = [] := by
  rw [closedLines, List.splitOn_eq_singleton h]
  rfl

theorem closedLines_append_newline (h : '\n' ∉ front) (rest : Text) :
    closedLines (front ++ '\n' :: rest) = withoutReturns front :: closedLines rest := by
  rw [closedLines, List.splitOn_append_cons_self_of_not_mem h,
    List.dropLast_cons_of_ne_nil (List.splitOn_ne_nil '\n' rest)]
  rfl

end Text

/-- Bytes that are read line by line: those to come, and a fault that may stand in place of their
end. -/
structure ByteReader where
  rest : Bytes
  fault : Option Fault

namespace ByteReader

open LineSource

/-- One call takes all up to the next newline, or else what is left; nothing left is the end. -/
def readLine (r : ByteReader) : Reading × ByteReader :=
  match r.rest.dropWhile (· ≠ newline) with
  | b :: rest => (plainLine (r.rest.takeWhile (· ≠ newline) ++ [b]), ⟨rest, r.fault⟩)
  | [] =>
    match r.fault with
    | some f => (.failure (.stream f), ⟨[], some f⟩)
    | none => (if r.rest.isEmpty then .endOfInput else plainLine r.rest, ⟨[], none⟩)

/-- What a call yields behind so many others. -/
def call : ByteReader → Nat → Reading
  | r, 0 => r.readLine.1
  | r, n + 1 => r.readLine.2.call n

end ByteReader

namespace LineSource

/-- Bytes are lines, each ended by a newline, with a last piece behind them. -/
@[elab_as_elim]
theorem bytes_induction {motive : Bytes → Prop}
    (last : ∀ tail, newline ∉ tail → motive tail)
    (line : ∀ front rest, newline ∉ front → motive rest → motive (front ++ newline :: rest)) :
    ∀ input, motive input := by
  intro input
  induction hn : input.length using Nat.strong_induction_on generalizing input with
  | _ n ih =>
    by_cases hmem : newline ∈ input
    · obtain ⟨front, rest, rfl, hfront⟩ := List.eq_append_cons_of_mem hmem
      have hlt : rest.length < n := by
        rw [← hn, List.length_append, List.length_cons]
        omega
      exact line front rest hfront (ih rest.length hlt rest rfl)
    · exact last input hmem

variable {front : Bytes}

theorem decode_append_newline (front rest : Bytes) :
    Utf8.decode (front ++ newline :: rest) = Utf8.decode front ++ '\n' :: Utf8.decode rest :=
  Utf8.decode_append_cons (by decide) front rest

theorem newline_mem_decode (bs : Bytes) : '\n' ∈ Utf8.decode bs ↔ newline ∈ bs :=
  Utf8.mem_decode_iff (by decide) bs

theorem trimLineEnds_of_notMem {t : Text} (h : '\n' ∉ t) : trimLineEnds t = t.withoutReturns := by
  have hdrop {l : Text} (hl : '\n' ∉ l) :
      (l.dropWhile fun c => c = '\n' || c = '\r') = l.dropWhile fun c => c = '\r' := by
    induction l with
    | nil => rfl
    | cons c l ih =>
      obtain ⟨hc, hl⟩ := not_or.1 (mt List.mem_cons.2 hl)
      rw [List.dropWhile_cons, List.dropWhile_cons, ih hl]
      simp [Ne.symm hc]
  rw [trimLineEnds, hdrop (by simpa using h)]
  rfl

theorem trimLineEnds_newline {t : Text} (h : '\n' ∉ t) :
    trimLineEnds (t ++ ['\n']) = t.withoutReturns := by
  rw [← trimLineEnds_of_notMem h]
  simp [trimLineEnds]

theorem plainLine_newline (h : newline ∉ front) :
    plainLine (front ++ [newline]) = .line (Utf8.decode front).withoutReturns := by
  rw [plainLine, decode_append_newline, Utf8.decode_nil,
    trimLineEnds_newline (mt (newline_mem_decode front).1 h)]

theorem plainLine_of_notMem (h : newline ∉ front) :
    plainLine front = .line (Utf8.decode front).withoutReturns := by
  rw [plainLine, trimLineEnds_of_notMem (mt (newline_mem_decode front).1 h)]

theorem splitLines_of_notMem (h : newline ∉ front) : splitLines front = ([], front) := by
  induction front with
  | nil => rfl
  | cons b front ih =>
    obtain ⟨hb, hfront⟩ := not_or.1 (mt List.mem_cons.2 h)
    rw [splitLines, ih hfront]
    simp [Ne.symm hb]

theorem splitLines_append_newline (h : newline ∉ front) (rest : Bytes) :
    splitLines (front ++ newline :: rest) =
      ((front ++ [newline]) :: (splitLines rest).1, (splitLines rest).2) := by
  induction front with
  | nil => simp [splitLines]
  | cons b front ih =>
    obtain ⟨hb, hfront⟩ := not_or.1 (mt List.mem_cons.2 h)
    rw [List.cons_append, splitLines, ih hfront]
    simp [Ne.symm hb]

theorem ofBytes_of_notMem (h : newline ∉ front) :
    (ofBytes front none).readings = (Text.lines (Utf8.decode front)).map .line := by
  rw [Text.lines_of_newline_notMem (mt (newline_mem_decode front).1 h), ofBytes,
    splitLines_of_notMem h]
  simp only [List.isEmpty_iff, Utf8.decode_eq_nil_iff, plainLine_of_notMem h]
  split_ifs <;> rfl

theorem ofBytes_fault_of_notMem (h : newline ∉ front) (fault : Fault) :
    (ofBytes front (some fault)).readings =
      (Text.closedLines (Utf8.decode front)).map .line ++ [.failure (.stream fault)] := by
  rw [Text.closedLines_of_newline_notMem (mt (newline_mem_decode front).1 h), ofBytes,
    splitLines_of_notMem h]
  rfl

theorem ofBytes_append_newline (h : newline ∉ front) (rest : Bytes) (fault : Option Fault) :
    (ofBytes (front ++ newline :: rest) fault).readings =
      .line (Utf8.decode front).withoutReturns :: (ofBytes rest fault).readings := by
  simp only [ofBytes, splitLines_append_newline h, List.map_cons, plainLine_newline h,
    List.cons_append]

theorem readings_ofBytes_eq (input : Bytes) :
    (ofBytes input none).readings = (Text.lines (Utf8.decode input)).map .line ∧
      ∀ fault, (ofBytes input (some fault)).readings =
        (Text.closedLines (Utf8.decode input)).map .line ++ [.failure (.stream fault)] := by
  induction input using bytes_induction with
  | last tail h => exact ⟨ofBytes_of_notMem h, ofBytes_fault_of_notMem h⟩
  | line front rest h ih =>
    obtain ⟨hlines, hclosed⟩ := ih
    have htext : '\n' ∉ Utf8.decode front := mt (newline_mem_decode front).1 h
    rw [decode_append_newline, Text.lines_append_newline htext,
      Text.closedLines_append_newline htext]
    refine ⟨?_, fun fault => ?_⟩
    · rw [ofBytes_append_newline h, hlines, List.map_cons]
    · rw [ofBytes_append_newline h, hclosed, List.map_cons, List.cons_append]

end LineSource

namespace ByteReader

open LineSource

variable {front : Bytes}

/-- What every call yields once all bytes are read. -/
def atEnd (fault : Option Fault) : Reading := fault.elim .endOfInput fun f => .failure (.stream f)

theorem call_nil (fault : Option Fault) (n : Nat) : call ⟨[], fault⟩ n = atEnd fault := by
  induction n with
  | zero => cases fault <;> rfl
  | succ n ih => cases fault <;> exact ih

theorem readLine_append_newline (h : newline ∉ front) (rest : Bytes) (fault : Option Fault) :
    readLine ⟨front ++ newline :: rest, fault⟩ =
      (.line (Utf8.decode front).withoutReturns, ⟨rest, fault⟩) := by
  have hne : ∀ b ∈ front, decide (b ≠ newline) = true := fun b hb =>
    decide_eq_true (ne_of_mem_of_not_mem hb h)
  unfold readLine
  rw [List.dropWhile_append_of_pos hne, List.takeWhile_append_of_pos hne,
    List.dropWhile_cons_of_neg (by simp), List.takeWhile_cons_of_neg (by simp), List.append_nil]
  dsimp only
  rw [plainLine_newline h]

theorem readLine_of_notMem (h : newline ∉ front) (fault : Option Fault) :
    readLine ⟨front, fault⟩ =
      ((ofBytes front fault).readings[0]?.getD (atEnd fault), ⟨[], fault⟩) := by
  have hdrop : front.dropWhile (· ≠ newline) = [] :=
    List.dropWhile_eq_nil_iff.2 fun b hb => decide_eq_true (ne_of_mem_of_not_mem hb h)
  simp only [readLine, hdrop, ofBytes, splitLines_of_notMem h]
  cases fault with
  | some f => rfl
  | none =>
    dsimp only
    split_ifs <;> rfl

theorem call_eq (input : Bytes) (fault : Option Fault) (n : Nat) :
    call ⟨input, fault⟩ n = (ofBytes input fault).readings[n]?.getD (atEnd fault) := by
  induction input using bytes_induction generalizing n with
  | last tail h =>
    cases n with
    | zero => rw [call, readLine_of_notMem h]
    | succ n =>
      have hlength : (ofBytes tail fault).readings.length ≤ n + 1 := by
        simp only [ofBytes, splitLines_of_notMem h]
        cases fault with
        | some f => simp
        | none => split_ifs <;> simp
      rw [call, readLine_of_notMem h, call_nil, List.getElem?_eq_none hlength, Option.getD_none]
  | line front rest h ih =>
    rw [ofBytes_append_newline h]
    cases n with
    | zero =>
      rw [call, readLine_append_newline h]
      rfl
    | succ n =>
      rw [call, readLine_append_newline h]
      exact ih n

end ByteReader

namespace LineSource

theorem newline_notMem_withoutReturns (h : newline ∉ front) :
    '\n' ∉ (Utf8.decode front).withoutReturns := by
  intro hmem
  exact h ((newline_mem_decode front).1 ((List.rdropWhile_prefix _ _).subset hmem))

theorem newline_notMem_of_mem_lines {input : Bytes} {line : Text}
    (h : line ∈ Text.lines (Utf8.decode input)) : '\n' ∉ line := by
  induction input using bytes_induction with
  | last tail htail =>
    rw [Text.lines_of_newline_notMem (mt (newline_mem_decode tail).1 htail)] at h
    split_ifs at h
    · cases h
    · rw [List.mem_singleton.1 h]
      exact newline_notMem_withoutReturns htail
  | line front rest hfront ih =>
    rw [decode_append_newline,
      Text.lines_append_newline (mt (newline_mem_decode front).1 hfront)] at h
    obtain rfl | h := List.mem_cons.1 h
    · exact newline_notMem_withoutReturns hfront
    · exact ih h

theorem length_closedLines_decode (input : Bytes) :
    (Text.closedLines (Utf8.decode input)).length = input.count newline := by
  induction input using bytes_induction with
  | last tail h =>
    rw [Text.closedLines_of_newline_notMem (mt (newline_mem_decode tail).1 h),
      List.count_eq_zero.2 h]
    rfl
  | line front rest h ih =>
    have htext : '\n' ∉ Utf8.decode front := mt (newline_mem_decode front).1 h
    simp [decode_append_newline, Text.closedLines_append_newline htext, ih, List.count_eq_zero.2 h]

theorem lines_decode_append (before after : Bytes) :
    Text.lines (Utf8.decode (before ++ newline :: after)) =
      Text.lines (Utf8.decode (before ++ [newline])) ++ Text.lines (Utf8.decode after) := by
  induction before using bytes_induction with
  | last tail h =>
    have htext : '\n' ∉ Utf8.decode tail := mt (newline_mem_decode tail).1 h
    rw [decode_append_newline, decode_append_newline, Text.lines_append_newline htext,
      Text.lines_append_newline htext]
    rfl
  | line front rest h ih =>
    have hline (more : Bytes) : Text.lines (Utf8.decode (front ++ newline :: (rest ++ more))) =
        (Utf8.decode front).withoutReturns :: Text.lines (Utf8.decode (rest ++ more)) := by
      rw [decode_append_newline, Text.lines_append_newline (mt (newline_mem_decode front).1 h)]
    simp only [List.append_assoc, List.cons_append, hline, ih]

/-- Bytes are read as the lines of the text that all of them are decoded to, and past these every call
finds the end. A fault at their end comes behind the lines that end in a newline. There is one of these
for each newline, no line has a newline in it, and lines on different sides of a newline do not
concern each other, whatever else is ill-formed. -/
theorem lines_of_bytes (input : Bytes) :
    let text := Utf8.decode input
    (ofBytes input none).readings = (Text.lines text).map .line ∧
      (∀ fault, (ofBytes input (some fault)).readings =
        (Text.closedLines text).map .line ++ [.failure (.stream fault)]) ∧
      (∀ fault n, ByteReader.call ⟨input, fault⟩ n =
        (ofBytes input fault).readings[n]?.getD (ByteReader.atEnd fault)) ∧
      (∀ line ∈ Text.lines text, '\n' ∉ line) ∧
      (Text.closedLines text).length = input.count newline ∧
      ∀ before after, input = before ++ newline :: after → Text.lines text =
        Text.lines (Utf8.decode (before ++ [newline])) ++ Text.lines (Utf8.decode after) := by
  intro text
  obtain ⟨hlines, hclosed⟩ := readings_ofBytes_eq input
  refine ⟨hlines, hclosed, ByteReader.call_eq input, fun line h => newline_notMem_of_mem_lines h,
    length_closedLines_decode input, ?_⟩
  rintro before after rfl
  exact lines_decode_append before after

end LineSource
end FileShell
