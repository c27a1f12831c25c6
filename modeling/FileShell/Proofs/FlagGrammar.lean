import FileShell.Flags
import Mathlib.Data.List.Induction

namespace FileShell

namespace Flag

/-- Either way to write a flag. -/
def form (f : Flag) (long : Bool) : Text := if long then f.long.toList else f.short.toList

@[simp] theorem ofArgument?_form (f : Flag) (long : Bool) : ofArgument? (f.form long) = some f := by
  cases f <;> cases long <;> decide

theorem ofArgument?_eq_some_iff {arg : Text} {f : Flag} :
    ofArgument? arg = some f ↔ ∃ long, arg = f.form long := by
  constructor
  · intro h
    have hform := List.find?_some h
    rw [Bool.or_eq_true, beq_iff_eq, beq_iff_eq] at hform
    obtain hshort | hlong := hform
    · exact ⟨false, hshort⟩
    · exact ⟨true, hlong⟩
  · rintro ⟨long, rfl⟩
    exact ofArgument?_form f long

theorem form_or (arg : Text) :
    (∀ (f : Flag) (long : Bool), arg ≠ f.form long) ∨ ∃ (f : Flag) (long : Bool), arg = f.form long := by
  cases h : ofArgument? arg with
  | none =>
    refine .inl fun f long harg => ?_
    rw [harg, ofArgument?_form] at h
    cases h
  | some f => exact .inr ⟨f, ofArgument?_eq_some_iff.1 h⟩

end Flag

/-- A switch, or a flag for a value and any value at all, with the form in which the flag is
written. -/
inductive Setting where
  | switch (f : Flag) (h : f.takesValue = false) (long : Bool)
  | given (f : Flag) (h : f.takesValue = true) (long : Bool) (value : Text)

namespace Setting

def flag : Setting → Flag
  | switch f _ _ => f
  | given f _ _ _ => f

def value : Setting → Text
  | switch _ _ _ => Flags.switchedOn
  | given _ _ _ value => value

def words : Setting → List Text
  | switch f _ long => [f.form long]
  | given f _ long value => [f.form long, value]

/-- The arguments that write settings one behind another. -/
def written (settings : List Setting) : List Text := settings.flatMap words

/-- What an argument list is at fault for at its very beginning. -/
inductive Faulty : List Text → FlagFault → Prop where
  | unknown {arg : Text} (h : ∀ (f : Flag) (long : Bool), arg ≠ f.form long) (rest : List Text) :
      Faulty (arg :: rest) (.unknown arg)
  | noValue {f : Flag} (h : f.takesValue = true) (long : Bool) :
      Faulty [f.form long] (.noValue (f.form long))

theorem Faulty.of_prefix {args cut : List Text} {fault : FlagFault} (h : Faulty args fault)
    (hcut : cut <+: args) (hne : cut ≠ []) : Faulty cut fault := by
  obtain ⟨arg, more, rfl⟩ := List.exists_cons_of_ne_nil hne
  cases h with
  | unknown h rest =>
    obtain ⟨rfl, -⟩ := List.cons_prefix_cons.1 hcut
    exact .unknown h more
  | noValue h long =>
    obtain ⟨rfl, hmore⟩ := List.cons_prefix_cons.1 hcut
    obtain rfl := List.prefix_nil.1 hmore
    exact .noValue h long

/-- Settings come first, and nothing or a fault behind them. -/
def Divides (args : List Text) : Prop :=
  ∃ settings rest, args = written settings ++ rest ∧ (rest = [] ∨ ∃ fault, Faulty rest fault)

theorem Divides.words_append {rest : List Text} (h : Divides rest) (s : Setting) :
    Divides (s.words ++ rest) := by
  obtain ⟨settings, rest, rfl, hrest⟩ := h
  exact ⟨s :: settings, rest, (List.append_assoc ..).symm, hrest⟩

theorem Divides.of_faulty {args : List Text} {fault : FlagFault} (h : Faulty args fault) :
    Divides args := ⟨[], args, rfl, .inr ⟨fault, h⟩⟩

theorem divides (args : List Text) : Divides args := by
  -- A setting takes one argument or two, and so does a step here.
  induction args using List.twoStepInduction with
  | nil => exact ⟨[], [], rfl, .inl rfl⟩
  | singleton arg =>
    obtain hunknown | ⟨f, long, rfl⟩ := Flag.form_or arg
    · exact .of_faulty (.unknown hunknown [])
    · cases h : f.takesValue with
      | false => exact Divides.words_append ⟨[], [], rfl, .inl rfl⟩ (.switch f h long)
      | true => exact .of_faulty (.noValue h long)
  | cons_cons arg next rest ihrest ihnext =>
    obtain hunknown | ⟨f, long, rfl⟩ := Flag.form_or arg
    · exact .of_faulty (.unknown hunknown (next :: rest))
    · cases h : f.takesValue with
      | false => exact (ihnext next).words_append (.switch f h long)
      | true => exact ihrest.words_append (.given f h long next)

end Setting

namespace Flags

open Setting

/-- Flags once settings have been made on top of them: of each flag the last one counts. -/
def overlaid (flags : Flags) (settings : List Setting) : Flags :=
  ⟨fun g => ((settings.filter (·.flag = g)).getLast?.map Setting.value).or (flags.value g)⟩

theorem overlaid_cons (flags : Flags) (s : Setting) (settings : List Setting) :
    flags.overlaid (s :: settings) = (flags.set s.flag s.value).overlaid settings := by
  unfold overlaid set
  congr 1
  funext g
  dsimp only
  by_cases hg : s.flag = g
  · rw [List.filter_cons_of_pos (by simpa using hg), List.getLast?_cons, if_pos hg.symm]
    cases (settings.filter (·.flag = g)).getLast? <;> rfl
  · rw [List.filter_cons_of_neg (by simpa using hg), if_neg (Ne.symm hg)]

theorem parse_words_append (flags : Flags) (s : Setting) (rest : List Text) :
    flags.parse (s.words ++ rest) = (flags.set s.flag s.value).parse rest := by
  cases s with
  | switch f h long =>
    cases rest <;> simp [words, parse, Flag.ofArgument?_form, h, flag, Setting.value]
  | given f h long value => simp [words, parse, Flag.ofArgument?_form, h, flag, Setting.value]

@[simp] theorem parse_written_append (flags : Flags) (settings : List Setting) (rest : List Text) :
    flags.parse (written settings ++ rest) = (flags.overlaid settings).parse rest := by
  induction settings generalizing flags with
  | nil => rfl
  | cons s settings ih =>
    rw [written, List.flatMap_cons, List.append_assoc, parse_words_append, overlaid_cons]
    exact ih (flags.set s.flag s.value)

@[simp] theorem parse_written (flags : Flags) (settings : List Setting) :
    flags.parse (written settings) = (flags.overlaid settings, .none) := by
  have h := parse_written_append flags settings []
  rwa [List.append_nil] at h

theorem parse_of_faulty {args : List Text} {fault : FlagFault} (h : Faulty args fault)
    (flags : Flags) : flags.parse args = (flags, some fault) := by
  cases h with
  | @unknown arg h rest =>
    have hnone : Flag.ofArgument? arg = .none := by
      refine Option.eq_none_iff_forall_ne_some.2 fun f hf => ?_
      obtain ⟨long, harg⟩ := Flag.ofArgument?_eq_some_iff.1 hf
      exact h f long harg
    cases rest <;> simp [parse, hnone]
  | noValue h long => simp [parse, Flag.ofArgument?_form, h]

theorem parse_eq_none_iff (flags : Flags) (args : List Text) :
    (flags.parse args).2 = .none ↔ ∃ settings, args = written settings := by
  constructor
  · intro h
    obtain ⟨settings, rest, rfl, rfl | ⟨fault, hfault⟩⟩ := divides args
    · exact ⟨settings, List.append_nil _⟩
    · rw [parse_written_append, parse_of_faulty hfault] at h
      cases h
  · rintro ⟨settings, rfl⟩
    rw [parse_written]

/-- Of the settings before a fault, none more can be read. -/
theorem prefix_of_written_prefix {settings more : List Setting} {rest : List Text} {fault : FlagFault}
    (hfault : Faulty rest fault) (h : written more <+: written settings ++ rest) :
    written more <+: written settings := by
  obtain hshort | ⟨cut, hcut⟩ := List.prefix_or_prefix_of_prefix h (List.prefix_append _ rest)
  · exact hshort
  · rw [← hcut, List.prefix_append_right_inj] at h
    by_cases hempty : cut = []
    · rw [hempty, List.append_nil] at hcut
      exact hcut ▸ List.prefix_rfl
    · -- What is read beyond them begins with the fault.
      have hread := parse_written .none more
      rw [← hcut, parse_written_append, parse_of_faulty (hfault.of_prefix h hempty)] at hread
      cases (Prod.mk.inj hread).2

/-- Arguments are read without a fault exactly if they write settings one behind another, and then each
flag has the value of its last setting, or the one it had. Else the fault is the first argument behind
as many settings as can be read, which are made: it is no flag, or one for a value with nothing behind
it. Arguments without a fault can be read apart from what follows them. -/
theorem parse_exact (flags : Flags) (args : List Text) :
    ((flags.parse args).2 = .none ↔ ∃ settings, args = written settings) ∧
      (∀ settings g, (flags.parse (written settings)).1.value g =
        ((settings.filter (·.flag = g)).getLast?.map Setting.value).or (flags.value g)) ∧
      (∀ fault, (flags.parse args).2 = some fault → ∃ settings arg rest,
        args = written settings ++ arg :: rest ∧
        (∀ more, written more <+: args → written more <+: written settings) ∧
        (flags.parse args).1 = (flags.parse (written settings)).1 ∧
        ((∀ f long, arg ≠ Flag.form f long) ∧
            fault.message = "Unknown flag: ".toList ++ arg ∨
          (∃ f long, f.takesValue = true ∧ arg = Flag.form f long) ∧ rest = [] ∧
            fault.message = "Flag ".toList ++ arg ++ " requires a value".toList)) ∧
      ((flags.parse args).2 = .none →
        ∀ more, flags.parse (args ++ more) = (flags.parse args).1.parse more) := by
  refine ⟨parse_eq_none_iff flags args, fun settings g => ?_, fun fault h => ?_, fun h more => ?_⟩
  · rw [parse_written]
    rfl
  · obtain ⟨settings, rest, rfl, rfl | ⟨fault', hfault⟩⟩ := divides args
    · rw [List.append_nil, parse_written] at h
      cases h
    · have hlongest (more : List Setting) (hmore : written more <+: written settings ++ rest) :=
        prefix_of_written_prefix hfault hmore
      rw [parse_written_append, parse_of_faulty hfault] at h ⊢
      obtain rfl := Option.some.inj h
      have hmade : flags.overlaid settings = (flags.parse (written settings)).1 := by
        rw [parse_written]
      cases hfault with
      | @unknown arg hunknown rest =>
        exact ⟨settings, arg, rest, rfl, hlongest, hmade, .inl ⟨hunknown, rfl⟩⟩
      | @noValue f htakes long =>
        exact ⟨settings, f.form long, [], rfl, hlongest, hmade,
          .inr ⟨⟨f, long, htakes, rfl⟩, rfl, rfl⟩⟩
  · obtain ⟨settings, rfl⟩ := (parse_eq_none_iff flags args).1 h
    rw [parse_written_append, parse_written]

/-- Behind a flag for a value stands its value, whatever it looks like. -/
example :
    let flags := (none.parse ["-C".toList, "-q".toList, "-p".toList]).1
    flags.value .directory = some "-q".toList ∧ flags.isSet .quiet = false ∧
      flags.isSet .plain = true := by
  decide

end Flags
end FileShell
