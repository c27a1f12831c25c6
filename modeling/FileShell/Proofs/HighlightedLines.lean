import FileShell.Highlight
import FileShell.Proofs.MaximalRuns
import Mathlib.Data.List.TakeWhile

namespace FileShell

namespace Terminal

open Style (escape)

/-- A character to show, or a sequence that says how those behind it are shown. -/
inductive Sign where
  | letter (c : Char)
  | code (parameters : Text)
deriving DecidableEq, Repr

def Sign.letter? : Sign → Option Char
  | letter c => some c
  | code _ => none

/-- Digits, colons and semicolons. -/
def isParameter (c : Char) : Bool := '0' ≤ c && c ≤ ';'

/-- The parameters of the escape sequence with which a text begins, and what stands behind it. -/
def leadingCode? : Text → Option (Text × Text)
  | '\x1b' :: '[' :: rest =>
    match rest.dropWhile isParameter with
    | 'm' :: behind => some (rest.takeWhile isParameter, behind)
    | _ => none
  | _ => none

theorem length_lt_of_leadingCode? {t parameters behind : Text}
    (h : leadingCode? t = some (parameters, behind)) : behind.length < t.length := by
  unfold leadingCode? at h
  split at h
  · next rest =>
    split at h
    · next hdrop =>
      obtain ⟨-, rfl⟩ := Prod.mk.inj (Option.some.inj h)
      have hle := List.length_dropWhile_le isParameter rest
      rw [hdrop] at hle
      simp only [List.length_cons] at hle ⊢
      omega
    · cases h
  · cases h

/-- A text read from its beginning; an escape that begins no sequence is a character like others. -/
def read (t : Text) : List Sign :=
  match t with
  | [] => []
  | c :: rest =>
    match _h : leadingCode? (c :: rest) with
    | some (parameters, behind) => .code parameters :: read behind
    | none => .letter c :: read rest
termination_by t.length
decreasing_by
  · exact length_lt_of_leadingCode? ‹_›
  · exact Nat.lt_succ_self _

/-- A text without the escape sequences in it. -/
def letters (t : Text) : Text := (read t).filterMap Sign.letter?

theorem read_nil : read [] = [] := by rw [read]

theorem leadingCode?_of_ne {c : Char} (hc : c ≠ '\x1b') (rest : Text) :
    leadingCode? (c :: rest) = none := by
  unfold leadingCode?
  split
  · next h => exact absurd (List.cons.inj h).1 hc
  · rfl

theorem leadingCode?_escape {code : String} (h : code.toList.all isParameter = true) (rest : Text) :
    leadingCode? (escape code ++ rest) = some (code.toList, rest) := by
  rw [List.all_eq_true] at h
  have htext : escape code ++ rest = '\x1b' :: '[' :: (code.toList ++ 'm' :: rest) := by
    simp [escape]
  have hdrop : (code.toList ++ 'm' :: rest).dropWhile isParameter = 'm' :: rest := by
    rw [List.dropWhile_append_of_pos h]
    rfl
  have htake : (code.toList ++ 'm' :: rest).takeWhile isParameter = code.toList := by
    rw [List.takeWhile_append_of_pos h]
    exact List.append_nil _
  rw [htext, leadingCode?, hdrop, htake]
  rfl

theorem read_of_leadingCode? {t parameters behind : Text}
    (h : leadingCode? t = some (parameters, behind)) : read t = .code parameters :: read behind := by
  cases t with
  | nil => cases h
  | cons c rest =>
    rw [read]
    split
    · next hcode =>
      obtain ⟨rfl, rfl⟩ := Prod.mk.inj (Option.some.inj (h.symm.trans hcode))
      rfl
    · next hcode => cases h.symm.trans hcode

theorem read_escape_append {code : String} (h : code.toList.all isParameter = true) (rest : Text) :
    read (escape code ++ rest) = .code code.toList :: read rest :=
  read_of_leadingCode? (leadingCode?_escape h rest)

theorem read_append {t : Text} (h : '\x1b' ∉ t) (rest : Text) :
    read (t ++ rest) = t.map .letter ++ read rest := by
  induction t with
  | nil => rfl
  | cons c t ih =>
    rw [List.mem_cons, not_or] at h
    rw [List.cons_append, read]
    split
    · next hcode => cases (leadingCode?_of_ne (Ne.symm h.1) _).symm.trans hcode
    · rw [ih h.2]
      rfl

/-- What is written part by part is read part by part, if each part is whatever stands behind it. -/
theorem read_flatMap_append {α : Type} {parts : List α} {write : α → Text} {signs : α → List Sign}
    (h : ∀ a ∈ parts, ∀ rest, read (write a ++ rest) = signs a ++ read rest) (rest : Text) :
    read (parts.flatMap write ++ rest) = parts.flatMap signs ++ read rest := by
  induction parts with
  | nil => rfl
  | cons a parts ih =>
    rw [List.forall_mem_cons] at h
    simp [h.1, ih h.2]

end Terminal

namespace Style

open Terminal

/-- The codes that turn a style on. -/
def codes : Style → List String
  | command => ["36", "1"]
  | flag => ["33"]
  | error => ["31", "1"]
  | path => ["32"]

/-- A text in a style, with the code behind it that turns all styles off. -/
def signs (s : Style) (t : Text) : List Sign :=
  (s.codes.map fun code => .code code.toList) ++ t.map .letter ++ [.code ['0']]

theorem opening_eq (s : Style) : s.opening = s.codes.flatMap escape := by cases s <;> rfl

theorem all_isParameter_of_mem_codes (s : Style) :
    ∀ code ∈ s.codes, code.toList.all isParameter = true := by
  have hall : (s.codes.all fun code => code.toList.all isParameter) = true := by cases s <;> rfl
  exact List.all_eq_true.1 hall

theorem read_wrap_append (s : Style) {t : Text} (h : '\x1b' ∉ t) (rest : Text) :
    read (s.wrap t ++ rest) = s.signs t ++ read rest := by
  have hopening (rest : Text) :
      read (s.opening ++ rest) = (s.codes.map fun code => .code code.toList) ++ read rest := by
    rw [s.opening_eq, List.map_eq_flatMap]
    exact read_flatMap_append
      (fun code hcode rest => read_escape_append (s.all_isParameter_of_mem_codes code hcode) rest)
      rest
  have hclosing : read (closing ++ rest) = .code ['0'] :: read rest :=
    read_escape_append rfl rest
  simp [wrap, signs, hopening, read_append h, hclosing]

end Style

namespace Highlighter

open Terminal Text

/-- How a line colours one of its runs, known by its position: the first word is the command, a later one
with a dash in front is a flag, and all else is left as it is. -/
def styleOf? (rs : List Run) (r : Run × Nat) : Option Style :=
  if !r.1.isWord then none
  else if !(rs.take r.2).any (·.isWord) then some .command
  else if r.1.text.head? = some '-' then some .flag
  else none

def styled (style : Option Style) (t : Text) : Text := style.elim t (·.wrap t)

def signsOf (style : Option Style) (t : Text) : List Sign :=
  style.elim (t.map .letter) (·.signs t)

theorem paintRuns_eq (before rs : List Run) :
    paintRuns (before.any (·.isWord)) rs =
      (rs.zipIdx before.length).flatMap fun r => styled (styleOf? (before ++ rs) r) r.1.text := by
  -- Whether a word is the first hangs on all runs before it, so that these are kept as `before`.
  induction rs generalizing before with
  | nil => rfl
  | cons run rs ih =>
    have hnext := ih (before ++ [run])
    simp only [List.any_append, List.append_assoc, List.singleton_append, List.length_append,
      List.length_singleton] at hnext
    rw [List.zipIdx_cons, List.flatMap_cons, ← hnext, styleOf?, List.take_left, paintRuns]
    cases hword : run.isWord with
    | false => simp [styled, hword]
    | true =>
      cases hseen : before.any (·.isWord) with
      | false => simp [styled, hword]
      | true =>
        by_cases hdash : run.text.head? = some '-'
        · simp [styled, hword, hdash]
        · simp [styled, hword, hdash]

theorem command_eq {h : Highlighter} (henabled : h.enabled = true) (line : Text) :
    h.command line =
      (runs line).zipIdx.flatMap fun r => styled (styleOf? (runs line) r) r.1.text := by
  rw [command, if_pos henabled]
  exact paintRuns_eq [] (runs line)

theorem read_styled_append (style : Option Style) {t : Text} (h : '\x1b' ∉ t) (rest : Text) :
    read (styled style t ++ rest) = signsOf style t ++ read rest := by
  cases style with
  | none => exact read_append h rest
  | some s => exact s.read_wrap_append h rest

theorem filterMap_signsOf (style : Option Style) (t : Text) :
    (signsOf style t).filterMap Sign.letter? = t := by
  have hletters : (t.map Sign.letter).filterMap Sign.letter? = t := by
    rw [List.filterMap_map]
    exact List.filterMap_some
  cases style with
  | none => exact hletters
  | some s =>
    simp [signsOf, Style.signs, hletters, Function.comp_def, Sign.letter?]

/-- A line is cut into its maximal runs, and a highlighter that is enabled adds nothing but colour: of a
line without escapes a terminal reads the runs in their order, the first word and each later word with a
dash in front between the codes of their styles and a reset, and without the codes this is the line. -/
theorem command_only_colours (line : Text) :
    (∀ rs, runs line = rs ↔ IsRunsOf rs line) ∧
      ∀ h : Highlighter, h.enabled = true → '\x1b' ∉ line →
        letters (h.command line) = line ∧
          read (h.command line) =
            (runs line).zipIdx.flatMap fun r => signsOf (styleOf? (runs line) r) r.1.text := by
  refine ⟨fun rs => runs_eq_iff, fun h henabled hescape => ?_⟩
  have hparts : ∀ r ∈ (runs line).zipIdx, '\x1b' ∉ r.1.text := by
    intro r hr hmem
    have hline : '\x1b' ∈ (runs line).flatMap (·.text) :=
      List.mem_flatMap.2 ⟨r.1, List.fst_mem_of_mem_zipIdx hr, hmem⟩
    rw [(isRunsOf_runs line).joined] at hline
    exact hescape hline
  have hread : read (h.command line) =
      (runs line).zipIdx.flatMap fun r => signsOf (styleOf? (runs line) r) r.1.text := by
    have hall := read_flatMap_append
      (fun r hr rest => read_styled_append (styleOf? (runs line) r) (hparts r hr) rest) []
    rw [← command_eq henabled, read_nil, List.append_nil, List.append_nil] at hall
    exact hall
  refine ⟨?_, hread⟩
  calc letters (h.command line)
      = (runs line).zipIdx.flatMap fun r => r.1.text := by
        rw [letters, hread, List.filterMap_flatMap]
        simp only [filterMap_signsOf]
    _ = (runs line).flatMap (·.text) := by
        rw [← List.flatMap_map Prod.fst, List.zipIdx_map_fst]
    _ = line := (isRunsOf_runs line).joined

/-- Of two words behind the command the one with a dash in front is coloured. -/
theorem command_only_colours_of_flag :
    let h : Highlighter := ⟨true⟩
    let line : Text := " rm\t-r [0m-".toList
    h.enabled = true ∧ '\x1b' ∉ line ∧ letters (h.command line) = line ∧
      read (h.command line) =
        [.letter ' '] ++ Style.command.signs ['r', 'm'] ++ [.letter '\t'] ++
          Style.flag.signs ['-', 'r'] ++ " [0m-".toList.map .letter := by
  intro h line
  have hescape : '\x1b' ∉ line := by decide
  obtain ⟨-, hall⟩ := command_only_colours line
  obtain ⟨hletters, hread⟩ := hall h rfl hescape
  exact ⟨rfl, hescape, hletters, hread.trans (by decide)⟩

end Highlighter
end FileShell
