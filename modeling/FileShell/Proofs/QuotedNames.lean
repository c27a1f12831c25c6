import FileShell.Proofs.Operations
import FileShell.Proofs.PlainWords
import FileShell.Proofs.RunTranscript
import FileShell.Proofs.TextPaths

namespace FileShell

namespace Text

def inQuotes (t : Text) : Text := '"' :: (t ++ ['"'])

theorem SpellsWord.inQuotes {t : Text} (hquote : '"' ∉ t) : SpellsWord (inQuotes t) t := by
  have h := SpellsWord.quoted hquote .done
  rwa [List.append_nil] at h

/-- Words behind a blank each, in some spelling. -/
def spaced (spell : Text → Text) (words : List Text) : Text := words.flatMap fun w => ' ' :: spell w

theorem isBlank_head?_spaced {spell : Text → Text} {words : List Text} {rest : Text}
    (hend : ∀ c ∈ rest.head?, isBlank c = true) :
    ∀ c ∈ (spaced spell words ++ rest).head?, isBlank c = true := by
  cases words with
  | nil => exact hend
  | cons w words =>
    intro c hc
    obtain rfl : ' ' = c := by simpa [spaced] using hc
    decide

theorem spellsClosed_spaced {spell : Text → Text} {words : List Text}
    (hwords : ∀ w ∈ words, w ≠ [] ∧ SpellsWord (spell w) w) {rest : Text} {ws : List Text}
    (hend : ∀ c ∈ rest.head?, isBlank c = true) (h : SpellsClosed rest ws) :
    SpellsClosed (spaced spell words ++ rest) (words ++ ws) := by
  induction words with
  | nil => exact h
  | cons w words ih =>
    rw [List.forall_mem_cons] at hwords
    obtain ⟨⟨hne, hspells⟩, hrest⟩ := hwords
    have hword := SpellsClosed.word (.blank (by decide : isBlank ' ' = true) .done) hspells hne
      (isBlank_head?_spaced hend) (ih hrest)
    simpa [spaced] using hword

end Text

namespace Operation

open Text

/-- A command line with every operand in quotes. -/
def line (op : Operation Text) : Text :=
  op.command.name.toList ++ (spaced id op.options ++ spaced inQuotes op.operands)

theorem isBare_name (c : Command) : IsBare c.name.toList := by
  cases c <;> decide

theorem words_line {op : Operation Text} (hoptions : ∀ o ∈ op.options, IsBare o)
    (hoperands : ∀ n ∈ op.operands, n ≠ [] ∧ '"' ∉ n) :
    words op.line = op.command.name.toList :: op.args := by
  have hname := isBare_name op.command
  have hquoted : SpellsClosed (spaced inQuotes op.operands) op.operands := by
    have h := spellsClosed_spaced (fun n hn => ⟨(hoperands n hn).1, .inQuotes (hoperands n hn).2⟩)
      (by simp) (.done .done)
    simpa using h
  have hbegins : ∀ c ∈ (spaced inQuotes op.operands).head?, isBlank c = true := by
    have h := @isBlank_head?_spaced inQuotes op.operands [] (by simp)
    rwa [List.append_nil] at h
  have hargs : SpellsClosed (spaced id op.options ++ spaced inQuotes op.operands) op.args :=
    spellsClosed_spaced (fun o ho => ⟨(hoptions o ho).ne_nil, (hoptions o ho).spellsWord⟩) hbegins
      hquoted
  exact (SpellsClosed.word .done hname.spellsWord hname.ne_nil (isBlank_head?_spaced hbegins)
    hargs).words_eq

end Operation

namespace Shell

open Operation

theorem effectOf?_line (s : Settings) (w : World) {op : Operation Text}
    (hoptions : ∀ o ∈ op.options, Text.IsBare o) (hoperands : ∀ n ∈ op.operands, n ≠ [] ∧ '"' ∉ n) :
    let name := op.command.name.toList
    let e :=
      if op = remove false Command.recursiveFlag then w.refuse Command.rmUsage
      else (op.map w.session.resolve).effect s.toSurroundings w
    effectOf? s w (.line op.line) =
      some (name, { e with events := .dispatching name op.args :: e.events }) := by
  have hcommand : Command.ofName? op.command.name.toList = some op.command := by
    cases op.command <;> rfl
  rw [effectOf?_of_words_cons (words_line hoptions hoperands)]
  simp only [Command.execute, hcommand, run_args]

/-- In quotes every name addresses the entry of the current directory that has this name, except that
`~` is home where home is known, and that `rm` without a flag takes `-r` for one. -/
theorem quoted_names_addressed (s : Settings) (w : World) {op : Operation Text}
    (hoptions : ∀ o ∈ op.options, Text.IsBare o)
    (hnames : ∀ n ∈ op.operands, FileName.IsProper (Utf8.encode n) ∧ '"' ∉ n) :
    let here (n : Text) := w.session.directory.join (Path.ofText n)
    let name := op.command.name.toList
    let ran (e : Effect) := some (name, { e with events := .dispatching name op.args :: e.events })
    let flagged := op = remove false Command.recursiveFlag
    (¬ flagged → (∀ n ∈ op.operands, n = ['~'] → w.session.home.path = none) →
      effectOf? s w (.line op.line) = ran ((op.map here).effect s.toSurroundings w)) ∧
    (¬ flagged → ∀ home, w.session.home.path = some home →
      effectOf? s w (.line op.line) = ran ((op.map fun n =>
        if n = ['~'] then w.session.directory.join home else here n).effect s.toSurroundings w)) ∧
    (flagged → effectOf? s w (.line op.line) = ran (w.refuse Command.rmUsage)) := by
  intro here name ran flagged
  have hoperands : ∀ n ∈ op.operands, n ≠ [] ∧ '"' ∉ n := by
    intro n hn
    obtain ⟨hproper, hquote⟩ := hnames n hn
    refine ⟨?_, hquote⟩
    rintro rfl
    exact hproper.ne_nil rfl
  have hslash : ∀ n ∈ op.operands, '/' ∉ n := fun n hn hmem =>
    (hnames n hn).1.noSlash (Path.slash_mem_encode.2 hmem)
  have hline := effectOf?_line s w hoptions hoperands
  dsimp only at hline
  refine ⟨fun hflag hhome => ?_, fun hflag home hhome => ?_, fun hflag => ?_⟩
  · rw [if_neg hflag] at hline
    have hmap : op.map w.session.resolve = op.map here := map_congr fun n hn => by
      rw [Session.resolve, w.session.home.expand_of_slash_notMem (hslash n hn)]
      split_ifs with ht
      · rw [hhome n hn ht, Option.getD_none]
      · rfl
    rw [hline, hmap]
  · rw [if_neg hflag] at hline
    have hmap : op.map w.session.resolve = op.map fun n =>
        if n = ['~'] then w.session.directory.join home else here n := map_congr fun n hn => by
      rw [Session.resolve, w.session.home.expand_of_slash_notMem (hslash n hn), hhome,
        Option.getD_some]
      split_ifs <;> rfl
    rw [hline, hmap]
  · rw [if_pos hflag] at hline
    exact hline

/-- Two directories, `home` and `~`. -/
def besideHome : FileSystem :=
  ⟨.dir ⟨0o755#12, 0⟩ [(Utf8.encode "home".toList, .dir ⟨0o755#12, 0⟩ []),
    (Utf8.encode ['~'], .dir ⟨0o755#12, 0⟩ [])], fun _ => ⟨.pipe, 0#12, 0⟩, 0, []⟩

/-- Behind the flag, `-r` in quotes is a name. -/
theorem quoted_names_behind_flag :
    let w : World := ⟨besideHome, ⟨[], .ofPath (Path.ofString "/home")⟩, []⟩
    let s : Settings := ⟨⟨some .native, .universal⟩, .plain, false⟩
    let op : Operation Text := .remove true Command.recursiveFlag
    op.line = "rm -r \"-r\"".toList ∧ (∀ o ∈ op.options, Text.IsBare o) ∧
      (∀ n ∈ op.operands, FileName.IsProper (Utf8.encode n) ∧ '"' ∉ n) ∧
      (∀ n ∈ op.operands, n = ['~'] → w.session.home.path = none) ∧
      (effectOf? s w (.line op.line)).map (·.2.verdict) =
        some (.failed (.pathNotFound (Path.ofString "/-r"))) := by
  intro w s op
  have hoptions : ∀ o ∈ op.options, Text.IsBare o := by
    intro o ho
    obtain rfl : o = Command.recursiveFlag := List.mem_singleton.1 ho
    decide
  have hnames : ∀ n ∈ op.operands, FileName.IsProper (Utf8.encode n) ∧ '"' ∉ n := by
    intro n hn
    obtain rfl : n = Command.recursiveFlag := List.mem_singleton.1 hn
    exact ⟨by decide, by decide⟩
  have hhome : ∀ n ∈ op.operands, n = ['~'] → w.session.home.path = none := by
    intro n hn ht
    obtain rfl : n = Command.recursiveFlag := List.mem_singleton.1 hn
    cases ht
  obtain ⟨hran, -⟩ := quoted_names_addressed s w hoptions hnames
  refine ⟨by decide, hoptions, hnames, hhome, ?_⟩
  rw [hran (by decide) hhome]
  rfl

/-- Where home is known, `cd "~"` goes there and not to the directory `~`. -/
theorem quoted_tilde_is_home :
    let w : World := ⟨besideHome, ⟨[], .ofPath (Path.ofString "/home")⟩, []⟩
    let s : Settings := ⟨⟨some .native, .universal⟩, .plain, false⟩
    let op : Operation Text := .enter ['~']
    let here (n : Text) := w.session.directory.join (Path.ofText n)
    (∀ n ∈ op.operands, FileName.IsProper (Utf8.encode n) ∧ '"' ∉ n) ∧
      op.line = "cd \"~\"".toList ∧
      ((op.map here).effect s.toSurroundings w).world.session.place = [Utf8.encode ['~']] ∧
      (effectOf? s w (.line op.line)).map (·.2.world.session.place) =
        some [Utf8.encode "home".toList] :=
  ⟨by decide, rfl, rfl, rfl⟩

end Shell
end FileShell
