import FileShell.Proofs.RunMoments

namespace FileShell

namespace Command

/-- The change of permissions that a command asks for where they can be changed. -/
def change? (session : Session) (name : Text) (args : List Text) : Option (Path × Mode) :=
  if name = chmod.name.toList then
    match args with
    | raw :: target :: _ => (Mode.parse? raw).map fun mode => (session.resolve target, mode)
    | _ => none
  else none

variable {w : World} {args : List Text} {c : Command} {e : Effect}

theorem Acts.calls_eq (h : Acts w args c e) (hc : c ≠ chmod) : e.world.calls = w.calls := by
  cases h with
  | looks _ _ hsame => rw [hsame]
  | moves place events => rfl
  | alters _ _ files => rfl
  | asks calls files => exact absurd rfl hc
  | asksInVain calls failure => exact absurd rfl hc
  | breaksOff files failure _ => rfl

theorem apply_calls (w : World) (path : Path) (result : Except Fault FileSystem) :
    (w.apply path result).world.calls = w.calls := by
  cases result <;> rfl

theorem execute_chmod_of_none {s : Surroundings} (hs : s.permissions = none) (w : World)
    (args : List Text) :
    execute s w chmod.name.toList args =
      ⟨w, unsupportedNotice ++ ['\n'], .done .stay, [.dispatching chmod.name.toList args]⟩ := by
  obtain ⟨permissions, zone⟩ := s
  obtain rfl : permissions = none := hs
  rfl

/-- The call is made before anything is known of what becomes of it. -/
theorem runChmod_calls (control : PermissionControl) (w : World) (args : List Text) :
    (runChmod (some control) w args).world.calls =
      w.calls ++ (change? w.session chmod.name.toList args).toList := by
  match args with
  | [] => exact (List.append_nil _).symm
  | [_] => exact (List.append_nil _).symm
  | raw :: target :: rest =>
    unfold runChmod change?
    dsimp only
    rw [if_pos rfl]
    cases Mode.parse? raw with
    | none => exact (List.append_nil _).symm
    | some mode => exact apply_calls _ _ _

theorem execute_calls (s : Surroundings) (w : World) (name : Text) (args : List Text) :
    (execute s w name args).world.calls =
      w.calls ++ if s.permissions.isSome then (change? w.session name args).toList else [] := by
  by_cases hname : name = chmod.name.toList
  · rw [hname]
    cases hs : s.permissions with
    | none =>
      rw [execute_chmod_of_none hs]
      exact (List.append_nil _).symm
    | some control =>
      rw [(execute_name s w args chmod).1, run, hs]
      exact runChmod_calls control w args
  · have hsame : (execute s w name args).world.calls = w.calls := by
      obtain ⟨failure, hrefused⟩ | ⟨c, e, hc, hacts, hworld, -, -⟩ := execute_acts s w name args
      · rw [hrefused]
        rfl
      · rw [hworld]
        exact hacts.calls_eq fun h => hname (h ▸ hc)
    have hnone : change? w.session name args = none := if_neg hname
    rw [hsame, hnone, Option.toList_none, ite_self, List.append_nil]

end Command

namespace Shell

/-- The change of permissions that a reading asks for where they can be changed. -/
def changeOf? (w : World) : Reading → Option (Path × Mode)
  | .line t =>
    match Text.words t with
    | [] => none
    | name :: args => Command.change? w.session name args
  | _ => none

theorem worldAfter_calls (s : Settings) (w : World) (r : Reading) :
    (worldAfter s w r).calls =
      w.calls ++ if s.permissions.isSome then (changeOf? w r).toList else [] := by
  cases r with
  | line t =>
    cases hwords : Text.words t with
    | nil => simp [worldAfter_of_words_nil hwords, changeOf?, hwords]
    | cons name args =>
      rw [worldAfter_of_words_cons hwords, changeOf?, hwords]
      exact Command.execute_calls s.toSurroundings w name args
  | _ => simp [worldAfter, changeOf?]

theorem foldl_worldAfter_calls (s : Settings) (w : World) (rs : List Reading) :
    (rs.foldl (worldAfter s) w).calls =
      w.calls ++
        if s.permissions.isSome then (visits s w rs).filterMap fun (v, r) => changeOf? v r else [] := by
  induction rs generalizing w with
  | nil => simp
  | cons r rs ih =>
    rw [List.foldl_cons, ih, worldAfter_calls, visits_cons, List.append_assoc]
    congr 1
    split_ifs
    · cases hchange : changeOf? w r <;> simp [hchange]
    · rfl

theorem chmod_unsupported {s : Surroundings} (hs : s.permissions = none) (shell : Shell)
    (args : List Text) :
    (shell.dispatch s Command.chmod.name.toList args).1.world = shell.world ∧
      (shell.dispatch s Command.chmod.name.toList args).2 =
        match (shell.out.write (Command.unsupportedNotice ++ ['\n'])).2 with
        | none => .done .stay
        | some fault => .failed (.stream fault) := by
  unfold dispatch
  rw [Command.execute_chmod_of_none hs]
  dsimp only
  cases (shell.out.write (Command.unsupportedNotice ++ ['\n'])).2 <;> exact ⟨rfl, rfl⟩

/-- On any streams, the changes of permissions that a run asks for are, in order, those of the lines that
it comes to, each with the path that the session gives at that moment, and whatever has become of the
ones before. Where permissions cannot be changed none is asked for, and `chmod` changes nothing and fails
only if its notice cannot be written. -/
theorem run_calls_exact (s : Settings) (source : LineSource) (shell : Shell) :
    let after := (run s source shell).shell.world
    let changes := (reached s source shell).filterMap fun (w, r) => changeOf? w r
    (∀ control, s.permissions = some control → after.calls = shell.world.calls ++ changes) ∧
    (∀ change ∈ changes, change.2.toNat ≤ 0o7777) ∧
    (s.permissions = none →
      after.calls = shell.world.calls ∧
      ∀ (other : Shell) (line : Text) (args : List Text),
        Text.words line = Command.chmod.name.toList :: args →
        (other.executeLine s line).1.world = other.world ∧
        (other.dispatch s.toSurroundings Command.chmod.name.toList args).2 =
          match (other.out.write (Command.unsupportedNotice ++ ['\n'])).2 with
          | none => .done .stay
          | some fault => .failed (.stream fault)) := by
  intro after changes
  obtain ⟨-, hworld, hreached⟩ := run_moments s source shell
  have hcalls : after.calls =
      shell.world.calls ++ if s.permissions.isSome then changes else [] := by
    rw [show after = _ from hworld, foldl_worldAfter_calls, ← hreached]
  refine ⟨fun control hs => ?_, fun change _ => Nat.le_of_lt_succ change.2.isLt, fun hs => ⟨?_, ?_⟩⟩
  · rw [hcalls, hs]
    rfl
  · rw [hcalls, hs]
    exact List.append_nil _
  · intro other line args hwords
    obtain ⟨hsame, hverdict⟩ := chmod_unsupported hs other args
    refine ⟨?_, hverdict⟩
    rw [executeLine_world, effectOf?_of_words_cons hwords]
    exact (dispatch_world s.toSurroundings other _ args).symm.trans hsame

/-- Every change fails; the second is asked for all the same, where the shell is by then. -/
example :
    let lines := ["mkdir d", "chmod 640 a", "chmod 9 a", "cd d", "chmod 1 b c"]
    let source : LineSource := ⟨false, lines.map fun line => .line line.toList⟩
    let shell := ofWorld ⟨.empty 0, ⟨[], .unknown⟩, []⟩ .unlimited .unlimited
    (run ⟨⟨some (.inert (some .denied)), .universal⟩, .plain, true⟩ source shell).shell.world.calls =
      [(Path.ofString "/a", 0o640#12), (Path.ofString "/d/b", 0o001#12)] := by
  decide +kernel

end Shell
end FileShell
