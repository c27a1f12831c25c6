import FileShell.Listing
import FileShell.Proofs.CalendarDates
import Mathlib.Data.Nat.Digits.Defs

namespace FileShell

theorem append_cons_inj {α : Type} [BEq α] [LawfulBEq α] {a : α} {s s' t t' : List α} (hs : a ∉ s)
    (hs' : a ∉ s') (h : s ++ a :: t = s' ++ a :: t') : s = s' ∧ t = t' := by
  have hpieces := congrArg (List.splitOn a) h
  rw [List.splitOn_append_cons_self_of_not_mem hs,
    List.splitOn_append_cons_self_of_not_mem hs'] at hpieces
  obtain rfl := (List.cons.inj hpieces).1
  exact ⟨rfl, (List.cons.inj (List.append_cancel_left h)).2⟩

namespace Text

theorem decimal_ne_nil (n : Nat) : decimal n ≠ [] := Nat.toDigits_ne_nil

theorem notMem_decimal {c : Char} (hc : c.isDigit = false) (n : Nat) : c ∉ decimal n := by
  intro hmem
  have hdigit := Nat.isDigit_of_mem_toDigits (by decide) (by decide) hmem
  simp [hc] at hdigit

theorem ofDigitChars_padLeft (width n : Nat) :
    Nat.ofDigitChars 10 (padLeft width '0' (decimal n)) 0 = n := by
  rw [padLeft, Nat.ofDigitChars_append, Nat.ofDigitChars_replicate_zero, Nat.mul_zero]
  exact Nat.ofDigitChars_ten_toDigits

theorem padLeft_zero_injective {width m n : Nat}
    (h : padLeft width '0' (decimal m) = padLeft width '0' (decimal n)) : m = n := by
  rw [← ofDigitChars_padLeft width m, h, ofDigitChars_padLeft]

theorem notMem_padLeft_zero {c : Char} (hc : c.isDigit = false) (width n : Nat) :
    c ∉ padLeft width '0' (decimal n) := by
  intro hmem
  obtain hzero | hmem := List.mem_append.1 hmem
  · rw [List.eq_of_mem_replicate hzero] at hc
    exact absurd hc (by decide)
  · exact notMem_decimal hc n hmem

/-- Numbers behind blanks are told from what stands behind them by the blank that they end in. -/
theorem padLeft_blank_inj {width m n : Nat} {s t : Text}
    (h : padLeft width ' ' (decimal m) ++ ' ' :: s = padLeft width ' ' (decimal n) ++ ' ' :: t) :
    m = n ∧ s = t := by
  have hdrop (k : Nat) (rest : Text) :
      (padLeft width ' ' (decimal k) ++ ' ' :: rest).dropWhile (· = ' ') = decimal k ++ ' ' :: rest := by
    obtain ⟨c, cs, hcs⟩ := List.exists_cons_of_ne_nil (decimal_ne_nil k)
    have hblank : c ≠ ' ' := by
      rintro rfl
      exact notMem_decimal (by decide) k (hcs ▸ List.mem_cons_self)
    rw [padLeft, List.append_assoc, List.dropWhile_append_of_pos (by simp), hcs, List.cons_append,
      List.dropWhile_cons_of_neg (by simpa using hblank)]
  have hdigits := congrArg (List.dropWhile (· = ' ')) h
  rw [hdrop, hdrop] at hdigits
  obtain ⟨hnumber, hrest⟩ :=
    append_cons_inj (notMem_decimal (by decide) m) (notMem_decimal (by decide) n) hdigits
  have hread := congrArg (Nat.ofDigitChars 10 · 0) hnumber
  exact ⟨by simpa [decimal, ofNat, Nat.ofDigitChars_ten_toDigits] using hread, hrest⟩

theorem length_decimal {n : Nat} (h : n < 100) : (decimal n).length ≤ 2 :=
  Nat.toDigits_length 10 n 2 (by decide) h

theorem length_padLeft {width : Nat} {t : Text} (h : t.length ≤ width) (c : Char) :
    (padLeft width c t).length = width := by
  rw [padLeft, List.length_append, List.length_replicate]
  omega

end Text

namespace Calendar

theorem length_twoDigits {n : Int} (h : n < 100) : (twoDigits n).length = 2 :=
  Text.length_padLeft (Text.length_decimal (by omega)) '0'

theorem twoDigits_injective {m n : Int} (hm : 0 ≤ m) (hn : 0 ≤ n) (h : twoDigits m = twoDigits n) :
    m = n := by
  have hnat := Text.padLeft_zero_injective h
  omega

theorem twoDigits_ne_nil (n : Int) : twoDigits n ≠ [] :=
  List.append_ne_nil_of_right_ne_nil _ (Text.decimal_ne_nil n.toNat)

theorem notMem_twoDigits {c : Char} (hc : c.isDigit = false) (n : Int) : c ∉ twoDigits n :=
  Text.notMem_padLeft_zero hc 2 n.toNat

theorem yearText_injective {a b : Int} (h : yearText a = yearText b) : a = b := by
  have hsign {sign : Char} (hs : sign.isDigit = false) (m n : Nat) :
      Text.padLeft 4 '0' (Text.decimal m) ≠ sign :: Text.padLeft 4 '0' (Text.decimal n) := fun heq =>
    Text.notMem_padLeft_zero hs 4 m (heq ▸ List.mem_cons_self)
  have hnumber {m n : Nat} (heq : Text.padLeft 4 '0' (Text.decimal m) =
      Text.padLeft 4 '0' (Text.decimal n)) : m = n := Text.padLeft_zero_injective heq
  unfold yearText at h
  dsimp only at h
  split_ifs at h
  · have hnat := hnumber h
    omega
  · exact absurd h (hsign (by decide) _ _)
  · exact absurd h (hsign (by decide) _ _)
  · exact absurd h.symm (hsign (by decide) _ _)
  · have hnat := hnumber (List.cons.inj h).2
    omega
  · exact absurd (List.cons.inj h).1 (by decide)
  · exact absurd h.symm (hsign (by decide) _ _)
  · exact absurd (List.cons.inj h).1 (by decide)
  · have hnat := hnumber (List.cons.inj h).2
    omega

theorem notMem_yearText {c : Char} (hc : c.isDigit = false) (hminus : c ≠ '-') (hplus : c ≠ '+')
    (year : Int) : c ∉ yearText year := by
  have hdigits := Text.notMem_padLeft_zero hc 4 year.natAbs
  unfold yearText
  dsimp only
  split_ifs <;> simp [hdigits, hminus, hplus]

def dateText (date : Date) : Text :=
  yearText date.year ++ '-' :: twoDigits date.month ++ '-' :: twoDigits date.day

/-- The time of day that is so many seconds behind midnight. -/
def timeText (seconds : Int) : Text :=
  twoDigits (seconds / 3600) ++ ':' :: twoDigits (seconds / 60 % 60) ++
    ':' :: twoDigits (seconds % 60)

/-- Stamps show whole seconds. -/
def stampAt (zone : Zone) (second : Int) : Text :=
  dateText (dateOfDay ((second + zone.ahead) / 86400)) ++
    ' ' :: timeText ((second + zone.ahead) % 86400)

theorem stamp_eq (zone : Zone) (time : Instant) :
    stamp zone time = stampAt zone (secondsOf time) := by
  simp [stamp, stampAt, dateText, timeText]

theorem notMem_dateText {c : Char} (hc : c.isDigit = false) (hminus : c ≠ '-') (hplus : c ≠ '+')
    (date : Date) : c ∉ dateText date := by
  simp [dateText, notMem_yearText hc hminus hplus, notMem_twoDigits hc, hminus]

theorem notMem_timeText {c : Char} (hc : c.isDigit = false) (hcolon : c ≠ ':') (seconds : Int) :
    c ∉ timeText seconds := by
  simp [timeText, notMem_twoDigits hc, hcolon]

theorem notMem_stamp {c : Char} (hc : c.isDigit = false) (hmarks : c ∉ ['-', '+', ':', ' '])
    (zone : Zone) (time : Instant) : c ∉ stamp zone time := by
  simp only [List.mem_cons, List.not_mem_nil, or_false, not_or] at hmarks
  obtain ⟨hminus, hplus, hcolon, hblank⟩ := hmarks
  simp [stamp_eq, stampAt, notMem_dateText hc hminus hplus, notMem_timeText hc hcolon, hblank]

theorem dateText_inj {date date' : Date} (hdate : date.InRange) (hdate' : date'.InRange)
    (h : dateText date = dateText date') : date = date' := by
  obtain ⟨year, month, day⟩ := date
  obtain ⟨year', month', day'⟩ := date'
  obtain ⟨hmonth, hmonths, hday, hdays⟩ := hdate
  obtain ⟨hmonth', hmonths', hday', hdays'⟩ := hdate'
  dsimp only at *
  have hlength (m n : Int) (hm : m < 100) (hn : n < 100) :
      ('-' :: twoDigits m).length = ('-' :: twoDigits n).length := by
    rw [List.length_cons, List.length_cons, length_twoDigits hm, length_twoDigits hn]
  obtain ⟨hfront, hlast⟩ := List.append_inj' h (hlength day day' (by omega) (by omega))
  obtain ⟨hyears, hmiddle⟩ := List.append_inj' hfront (hlength month month' (by omega) (by omega))
  have hyear : year = year' := yearText_injective hyears
  have hmonth : month = month' :=
    twoDigits_injective (by omega) (by omega) (List.cons.inj hmiddle).2
  have hday : day = day' := twoDigits_injective (by omega) (by omega) (List.cons.inj hlast).2
  rw [hyear, hmonth, hday]

theorem length_timeText {seconds : Int} (h : seconds < 86400) : (timeText seconds).length = 8 := by
  simp only [timeText, List.length_append, List.length_cons]
  rw [length_twoDigits (by omega), length_twoDigits (by omega), length_twoDigits (by omega)]

theorem timeText_injective {s s' : Int} (h0 : 0 ≤ s) (h1 : s < 86400) (h0' : 0 ≤ s')
    (h1' : s' < 86400) (h : timeText s = timeText s') : s = s' := by
  have hlength {m n : Int} (hm : m < 60) (hn : n < 60) :
      (':' :: twoDigits m).length = (':' :: twoDigits n).length := by
    rw [List.length_cons, List.length_cons, length_twoDigits (by omega), length_twoDigits (by omega)]
  obtain ⟨hfront, hlast⟩ := List.append_inj' h (hlength (by omega) (by omega))
  obtain ⟨hhours, hminutes⟩ := List.append_inj' hfront (hlength (by omega) (by omega))
  have hhour := twoDigits_injective (by omega) (by omega) hhours
  have hminute := twoDigits_injective (by omega) (by omega) (List.cons.inj hminutes).2
  have hsecond := twoDigits_injective (by omega) (by omega) (List.cons.inj hlast).2
  omega

theorem stamp_inj {zone : Zone} {time time' : Instant} {s t : Text}
    (h : stamp zone time ++ ' ' :: s = stamp zone time' ++ ' ' :: t) :
    secondsOf time = secondsOf time' ∧ s = t := by
  simp only [stamp_eq, stampAt, List.append_assoc, List.cons_append] at h
  have hblank (date : Date) : ' ' ∉ dateText date :=
    notMem_dateText (by decide) (by decide) (by decide) date
  obtain ⟨hdate, hrest⟩ := append_cons_inj (hblank _) (hblank _) h
  have hlength := (length_timeText (Int.emod_lt_of_pos (secondsOf time + zone.ahead) (by decide))).trans
    (length_timeText (Int.emod_lt_of_pos (secondsOf time' + zone.ahead) (by decide))).symm
  obtain ⟨htime, hend⟩ := List.append_inj hrest hlength
  have hdays := dateOfDay_injective
    (dateText_inj (inRange_dateOfDay _) (inRange_dateOfDay _) hdate)
  have hseconds := timeText_injective (by omega) (by omega) (by omega) (by omega) htime
  exact ⟨by omega, (List.cons.inj hend).2⟩

theorem stamp_ne_noStamp (zone : Zone) (time : Instant) (s t : Text) :
    stamp zone time ++ ' ' :: s ≠ Entry.noStamp ++ ' ' :: t := by
  intro h
  rw [stamp_eq, stampAt, List.append_assoc, List.cons_append] at h
  obtain ⟨hdate, -⟩ := append_cons_inj (notMem_dateText (by decide) (by decide) (by decide) _)
    (by decide) h
  generalize dateOfDay ((secondsOf time + zone.ahead) / 86400) = date at hdate
  obtain ⟨c, cs, hcs⟩ := List.exists_cons_of_ne_nil (twoDigits_ne_nil date.day)
  have hmem : c ∈ Entry.noStamp := by
    rw [← hdate, dateText, hcs]
    simp
  rw [List.eq_of_mem_replicate hmem] at hcs
  exact notMem_twoDigits (by decide) date.day (hcs ▸ List.mem_cons_self)

end Calendar

theorem EntrySort.length_text (sort : EntrySort) : sort.text.length = 4 := by
  cases sort <;> rfl

theorem EntrySort.text_injective {a b : EntrySort} (h : a.text = b.text) : a = b := by
  cases a <;> cases b
  · rfl
  · exact absurd h (by decide)
  · exact absurd h (by decide)
  · rfl

/-- What the row of an entry tells: its time only to the second. -/
structure RowFacts where
  sort : EntrySort
  size : Nat
  second : Option Int
  name : Text
deriving DecidableEq, Repr

namespace Entry

def facts (e : Entry) : RowFacts := ⟨e.sort, e.size, e.modified.map Calendar.secondsOf, e.name⟩

def isWritable (e : Entry) : Bool := e.modified.all Calendar.isSupported

def stampOf (zone : Zone) (e : Entry) : Text := e.modified.elim noStamp (Calendar.stamp zone)

/-- The row of an entry with the end of the line. -/
def line (zone : Zone) (e : Entry) : Text := e.row (e.stampOf zone) ++ ['\n']

variable {zone : Zone} {e e' : Entry}

theorem row?_eq (zone : Zone) (e : Entry) :
    e.row? zone = if e.isWritable then some (e.row (e.stampOf zone)) else none := by
  unfold row? isWritable stampOf Calendar.stamp?
  cases e.modified with
  | none => rfl
  | some time =>
    dsimp only [Option.all_some, Option.elim_some]
    split_ifs <;> rfl

theorem row_eq (e : Entry) (stamp : Text) :
    e.row stamp = e.sort.text ++
      ' ' :: (Text.padLeft 10 ' ' (Text.decimal e.size) ++ ' ' :: (stamp ++ ' ' :: e.name)) := by
  simp [row]

theorem stampOf_inj {s t : Text} (h : e.stampOf zone ++ ' ' :: s = e'.stampOf zone ++ ' ' :: t) :
    e.modified.map Calendar.secondsOf = e'.modified.map Calendar.secondsOf ∧ s = t := by
  unfold stampOf at h
  cases hmodified : e.modified with
  | none =>
    cases hmodified' : e'.modified with
    | none =>
      rw [hmodified, hmodified'] at h
      exact ⟨rfl, (List.cons.inj (List.append_cancel_left h)).2⟩
    | some time' =>
      rw [hmodified, hmodified'] at h
      exact absurd h.symm (Calendar.stamp_ne_noStamp zone time' t s)
  | some time =>
    cases hmodified' : e'.modified with
    | none =>
      rw [hmodified, hmodified'] at h
      exact absurd h (Calendar.stamp_ne_noStamp zone time s t)
    | some time' =>
      rw [hmodified, hmodified'] at h
      obtain ⟨hseconds, hrest⟩ := Calendar.stamp_inj h
      exact ⟨congrArg some hseconds, hrest⟩

theorem facts_eq_of_row (h : e.row (e.stampOf zone) = e'.row (e'.stampOf zone)) :
    e.facts = e'.facts := by
  rw [row_eq, row_eq] at h
  have hlength := e.sort.length_text.trans e'.sort.length_text.symm
  obtain ⟨hsort, hrest⟩ := List.append_inj h hlength
  obtain ⟨hsize, hrest⟩ := Text.padLeft_blank_inj (List.cons.inj hrest).2
  obtain ⟨hsecond, hname⟩ := stampOf_inj hrest
  unfold facts
  rw [EntrySort.text_injective hsort, hsize, hsecond, hname]

theorem newline_notMem_row (hname : '\n' ∉ e.name) : '\n' ∉ e.row (e.stampOf zone) := by
  have hsort : '\n' ∉ e.sort.text := by cases e.sort <;> decide
  have hsize : '\n' ∉ Text.padLeft 10 ' ' (Text.decimal e.size) := by
    simp [Text.padLeft, Text.notMem_decimal]
  have hstamp : '\n' ∉ e.stampOf zone := by
    unfold stampOf
    cases e.modified with
    | none => exact (by decide : '\n' ∉ noStamp)
    | some time => exact Calendar.notMem_stamp (by decide) (by decide) zone time
  rw [row_eq]
  simp [hsort, hsize, hstamp, hname]

/-- Where no name has a newline, the lines of entries tell where each of them ends. -/
theorem facts_eq_of_lines {es es' : List Entry} (hnames : ∀ e ∈ es, '\n' ∉ e.name)
    (hnames' : ∀ e ∈ es', '\n' ∉ e.name)
    (h : es.flatMap (line zone) = es'.flatMap (line zone)) : es.map facts = es'.map facts := by
  induction es generalizing es' with
  | nil =>
    cases es' with
    | nil => rfl
    | cons e' es' => simp [line] at h
  | cons e es ih =>
    cases es' with
    | nil => simp [line] at h
    | cons e' es' =>
      obtain ⟨hname, hnames⟩ := List.forall_mem_cons.1 hnames
      obtain ⟨hname', hnames'⟩ := List.forall_mem_cons.1 hnames'
      simp only [List.flatMap_cons, line, List.append_assoc, List.singleton_append] at h
      obtain ⟨hrow, hrest⟩ :=
        append_cons_inj (newline_notMem_row hname) (newline_notMem_row hname') h
      rw [List.map_cons, List.map_cons, facts_eq_of_row hrow, ih hnames hnames' hrest]

theorem stampOf_eq (zone : Zone) (e : Entry) :
    e.stampOf zone = (e.modified.map Calendar.secondsOf).elim noStamp (Calendar.stampAt zone) := by
  unfold stampOf
  cases e.modified with
  | none => rfl
  | some time => exact Calendar.stamp_eq zone time

theorem line_eq_of_facts (h : e.facts = e'.facts) : e.line zone = e'.line zone := by
  obtain ⟨hsort, hsize, hsecond, hname⟩ := RowFacts.mk.inj h
  simp only [line, row, stampOf_eq, hsort, hsize, hsecond, hname]

theorem lines_eq_of_facts {es es' : List Entry} (h : es.map facts = es'.map facts) :
    es.flatMap (line zone) = es'.flatMap (line zone) := by
  induction es generalizing es' with
  | nil =>
    obtain rfl := List.map_eq_nil_iff.1 h.symm
    rfl
  | cons e es ih =>
    cases es' with
    | nil => cases h
    | cons e' es' =>
      obtain ⟨hfirst, hrest⟩ := List.cons.inj h
      rw [List.flatMap_cons, List.flatMap_cons, line_eq_of_facts hfirst, ih hrest]

end Entry
end FileShell
