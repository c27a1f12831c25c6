import FileShell.FileSystem.Canonical
import FileShell.Proofs.WellFormed

namespace FileShell

theorem Place.length_path_mono {p q : Place} (h : p <+: q) :
    p.path.bytes.length ≤ q.path.bytes.length := by
  obtain ⟨rest, rfl⟩ := h
  rw [bytes_path, bytes_path]
  cases p with
  | nil =>
    cases rest with
    | nil => exact Nat.le_refl _
    | cons n rest => simp
  | cons n p =>
    rw [if_neg (List.cons_ne_nil n p), if_neg (by simp), List.flatMap_append, List.length_append]
    exact Nat.le_add_right _ _

namespace FileSystem

variable {fs : FileSystem} {path : Path} {dir place p q : Place} {n : FileName} {names rest : Place}

/-- Something that is no link is at a place. -/
def Stands (fs : FileSystem) (place : Place) : Prop :=
  ∃ sight, fs.sight? place = some sight ∧ ∀ target, sight ≠ .link target

theorem Stands.of_directory {searchable : Bool}
    (h : fs.sight? place = some (.directory searchable)) : fs.Stands place :=
  ⟨_, h, nofun⟩

theorem Stands.sight?_ne_link (h : fs.Stands place) (target : Path) :
    fs.sight? place ≠ some (.link target) := by
  obtain ⟨sight, hsight, hne⟩ := h
  rw [hsight]
  exact fun heq => hne target (Option.some.inj heq)

theorem Stands.directory_of_append (h : fs.Stands (place ++ n :: rest)) :
    ∃ searchable, fs.sight? place = some (.directory searchable) := by
  obtain ⟨sight, hsight, -⟩ := h
  obtain ⟨node, hnode, -⟩ := Option.map_eq_some_iff.1 hsight
  rw [node?_append] at hnode
  obtain ⟨above, habove, hbelow⟩ := Option.bind_eq_some_iff.1 hnode
  cases above with
  | leaf id => cases hbelow
  | dir folder es => exact (fs.node?_eq_dir_iff place).1 ⟨folder, es, habove⟩

/-- The steps by which all links of a path are followed. -/
inductive Arrives (fs : FileSystem) : Place → List Component → Place → Prop where
  | done (dir : Place) : Arrives fs dir [] dir
  | here {dir p : Place} {rest : List Component} (h : Arrives fs dir rest p) :
      Arrives fs dir (.here :: rest) p
  | up {dir p : Place} {rest : List Component} (h : Arrives fs dir.parent rest p) :
      Arrives fs dir (.up :: rest) p
  | follow {dir p : Place} {n : FileName} {target : Path} {rest : List Component}
      (hlink : fs.sight? (dir ++ [n]) = some (.link target))
      (h : Arrives fs (origin dir target) (target.components ++ rest) p) :
      Arrives fs dir (.name n :: rest) p
  | enter {dir p : Place} {n : FileName} {rest : List Component}
      (hpass : fs.sight? dir = some (.directory true)) (hname : n.length ≤ nameLimit)
      (hstands : fs.Stands (dir ++ [n])) (hlength : (dir ++ [n]).path.bytes.length ≤ pathLimit)
      (h : Arrives fs (dir ++ [n]) rest p) : Arrives fs dir (.name n :: rest) p

theorem nodeNamed_eq_ok_iff {node : Node} :
    fs.nodeNamed dir n = .ok node ↔ fs.sight? dir = some (.directory true) ∧
      n.length ≤ nameLimit ∧ fs.node? (dir ++ [n]) = some node := by
  rw [← pass_eq_ok_iff]
  constructor
  · intro h
    obtain ⟨⟨⟩, hpass, h⟩ := bind_eq_ok_iff.1 h
    by_cases hlong : nameLimit < n.length
    · simp [if_pos hlong] at h
    · simp only [if_neg hlong] at h
      cases hnode : fs.node? (dir ++ [n]) with
      | none => simp [hnode] at h
      | some found =>
        rw [hnode] at h
        obtain rfl := Except.ok.inj h
        exact ⟨hpass, Nat.le_of_not_lt hlong, rfl⟩
  · rintro ⟨hpass, hname, hnode⟩
    rw [nodeNamed, hpass, ok_bind, if_neg (Nat.not_lt.2 hname), hnode]

theorem canonicalFrom_name (again : Place → Bool → List Component → Except Fault Place)
    (slash : Bool) (cs : List Component) :
    fs.canonicalFrom again dir slash (.name n :: cs) =
      if pathLimit < (dir ++ [n]).path.bytes.length then fail .nameTooLong
      else
        let asked := asksForDirectory slash cs
        let overlong := asked && decide ((dir ++ [n]).path.bytes.length = pathLimit)
        match fs.nodeNamed dir n with
        | .error fault => if overlong then fail .nameTooLong else .error fault
        | .ok node =>
          match fs.linkTarget? (dir ++ [n]) with
          | some target =>
            again (origin dir target) (slash || (cs.isEmpty && target.endsInSlash))
              (target.components ++ cs)
          | none =>
            if overlong then fail .nameTooLong
            else if asked && !node.isDir then fail .notDirectory
            else fs.canonicalFrom again (dir ++ [n]) slash cs := by
  rw [canonicalFrom]
  by_cases hlong : pathLimit < (dir ++ [n]).path.bytes.length
  · simp only [if_pos hlong]
    rfl
  · simp only [if_neg hlong]
    cases fs.nodeNamed dir n with
    | error fault =>
      simp only [Except.toOption, Option.bind_none]
      split_ifs <;> rfl
    | ok node =>
      simp only [Except.toOption, Option.bind_some]
      cases fs.linkTarget? (dir ++ [n]) with
      | some target => rfl
      | none =>
        simp only [ok_bind]
        split_ifs <;> rfl

theorem canonical_eq (fs : FileSystem) (path : Path) :
    fs.canonical path =
      if path.bytes.contains 0 then .error .nulInPath
      else if path.bytes.isEmpty then fail .missing
      else fs.canonicalWithin linkLimit (fs.outset path) path.endsInSlash path.components := by
  unfold canonical outset
  split_ifs <;> rfl

theorem arrives_of_canonicalFrom
    {again : Place → Bool → List Component → Except Fault Place}
    (hagain : ∀ dir slash cs p, again dir slash cs = .ok p → Arrives fs dir cs p) {slash : Bool}
    {cs : List Component} (h : fs.canonicalFrom again dir slash cs = .ok p) :
    Arrives fs dir cs p := by
  induction cs generalizing dir with
  | nil =>
    obtain rfl := Except.ok.inj h
    exact .done dir
  | cons c rest ih =>
    cases c with
    | here => exact .here (ih h)
    | up => exact .up (ih h)
    | name n =>
      rw [canonicalFrom_name] at h
      split_ifs at h with hlong
      · simp at h
      cases hfound : fs.nodeNamed dir n with
      | error fault =>
        simp only [hfound] at h
        split_ifs at h
        simp at h
      | ok node =>
        obtain ⟨hpass, hname, hnode⟩ := nodeNamed_eq_ok_iff.1 hfound
        simp only [hfound] at h
        cases hlink : fs.linkTarget? (dir ++ [n]) with
        | some target =>
          simp only [hlink] at h
          exact .follow ((fs.linkTarget?_eq_some_iff _ _).1 hlink) (hagain _ _ _ _ h)
        | none =>
          simp only [hlink] at h
          split_ifs at h
          · simp at h
          · simp at h
          · have hstands : fs.Stands (dir ++ [n]) := by
              refine ⟨fs.sightOf node, by rw [sight?, hnode]; rfl, fun target heq => ?_⟩
              have hsome := (fs.linkTarget?_eq_some_iff (dir ++ [n]) target).2
                (by rw [sight?, hnode, Option.map_some, heq])
              rw [hlink] at hsome
              cases hsome
            exact .enter hpass hname hstands (Nat.le_of_not_lt hlong) (ih h)

theorem arrives_of_canonicalWithin {links : Nat} {slash : Bool} {cs : List Component}
    (h : fs.canonicalWithin links dir slash cs = .ok p) : Arrives fs dir cs p := by
  induction links generalizing dir slash cs p with
  | zero => exact arrives_of_canonicalFrom (fun _ _ _ _ hfail => by simp at hfail) h
  | succ links ih => exact arrives_of_canonicalFrom (fun _ _ _ _ hagain => ih hagain) h

theorem arrives_of_canonical (h : fs.canonical path = .ok place) :
    Arrives fs (fs.outset path) path.components place := by
  rw [canonical_eq] at h
  split_ifs at h
  · simp at h
  · exact arrives_of_canonicalWithin h

/-- What holds of the root and is kept on the way up and on the way down holds where a way ends. -/
theorem Arrives.keeps {cs : List Component} (h : Arrives fs dir cs p) (P : Place → Prop)
    (hroot : P []) (hparent : ∀ d, P d → P d.parent)
    (hchild : ∀ d m, P d → fs.sight? d = some (.directory true) → m.length ≤ nameLimit →
      fs.Stands (d ++ [m]) → (d ++ [m]).path.bytes.length ≤ pathLimit → P (d ++ [m]))
    (hdir : P dir) : P p := by
  induction h with
  | done dir => exact hdir
  | here h ih => exact ih hdir
  | up h ih => exact ih (hparent _ hdir)
  | follow hlink h ih =>
    apply ih
    unfold origin
    split_ifs
    · exact hroot
    · exact hdir
  | enter hpass hname hstands hlength h ih =>
    exact ih (hchild _ _ hdir hpass hname hstands hlength)

/-- Where a walk that follows all links gets through, it ends where the links lead. -/
theorem Arrives.eq_of_leads {links : Nat} {slash : Bool} {cs : List Component} {b : Brink}
    (h : Leads fs .always links dir slash cs b) (hsettle : fs.settle b = .ok q)
    (harrives : Arrives fs dir cs p) : q = p := by
  -- What is seen at a place says which rule made the last step of the way there, as it did for the
  -- walk: a link is followed and what is no link is entered.
  induction h with
  | start links dir slash =>
    cases harrives
    exact (Except.ok.inj hsettle).symm
  | stop links hpass hlast =>
    cases harrives with
    | here h =>
      cases h
      exact (Except.ok.inj hsettle).symm
    | up h =>
      cases h
      exact (Except.ok.inj hsettle).symm
    | follow hlink h => cases hlast _ _ rfl hlink
    | enter _ _ _ _ h =>
      cases h
      exact ((settle_name_eq_ok_iff rfl).1 hsettle).2.1
  | follow links hpass hlink _ _ ih =>
    cases harrives with
    | follow hlink' h =>
      obtain rfl := Sight.link.inj (Option.some.inj (hlink.symm.trans hlink'))
      rw [List.append_nil] at h
      exact ih hsettle h
    | enter _ _ hstands _ _ => exact absurd hlink (hstands.sight?_ne_link _)
  | here links hpass _ ih =>
    cases harrives with
    | here h => exact ih hsettle h
  | up links hpass _ ih =>
    cases harrives with
    | up h => exact ih hsettle h
  | enter links hpass hname hchild _ ih =>
    cases harrives with
    | follow hlink h =>
      rw [hchild] at hlink
      cases hlink
    | enter _ _ _ _ h => exact ih hsettle h
  | cross links hpass hname hlink _ ih =>
    cases harrives with
    | follow hlink' h =>
      obtain rfl := Sight.link.inj (Option.some.inj (hlink.symm.trans hlink'))
      exact ih hsettle h
    | enter _ _ hstands _ _ => exact absurd hlink (hstands.sight?_ne_link _)

/-- From a directory, names lead down through directories that may be searched, by no link. -/
inductive Straight (fs : FileSystem) : Place → Place → Prop where
  | nil (dir : Place) : Straight fs dir []
  | cons {dir : Place} {n : FileName} {rest : Place}
      (hpass : fs.sight? dir = some (.directory true)) (hname : n.length ≤ nameLimit)
      (hstands : fs.Stands (dir ++ [n])) (h : Straight fs (dir ++ [n]) rest) :
      Straight fs dir (n :: rest)

namespace Straight

theorem of_append (h : Straight fs dir (names ++ rest)) : Straight fs dir names := by
  induction names generalizing dir with
  | nil => exact .nil dir
  | cons m names ih =>
    cases h with
    | cons hpass hname hstands h => exact .cons hpass hname hstands (ih h)

theorem pass (h : Straight fs dir (names ++ n :: rest)) :
    fs.sight? (dir ++ names) = some (.directory true) := by
  induction names generalizing dir with
  | nil =>
    cases h with
    | cons hpass _ _ _ => rwa [List.append_nil]
  | cons m names ih =>
    cases h with
    | cons _ _ _ h => simpa using ih h

theorem concat (h : Straight fs dir names) (hpass : fs.sight? (dir ++ names) = some (.directory true))
    (hname : n.length ≤ nameLimit) (hstands : fs.Stands (dir ++ names ++ [n])) :
    Straight fs dir (names ++ [n]) := by
  induction h with
  | nil dir =>
    rw [List.append_nil] at hpass hstands
    exact .cons hpass hname hstands (.nil _)
  | cons hpass' hname' hstands' h ih =>
    exact .cons hpass' hname' hstands' (ih (by simpa using hpass) (by simpa using hstands))

theorem stands (h : Straight fs dir names) : names = [] ∨ fs.Stands (dir ++ names) := by
  induction h with
  | nil dir => exact .inl rfl
  | cons hpass hname hstands h ih =>
    refine .inr ?_
    rcases ih with rfl | hrest
    · exact hstands
    · simpa using hrest

theorem leads (h : Straight fs dir names) {searchable : Bool}
    (hdir : fs.sight? (dir ++ names) = some (.directory searchable)) (following : Following)
    (links : Nat) (slash : Bool) :
    ∃ b, Leads fs following links dir slash (names.map .name) b ∧
      fs.settle b = .ok (dir ++ names) := by
  induction h with
  | nil dir => exact ⟨_, .start links dir slash, by rw [List.append_nil]; rfl⟩
  | @cons dir n rest hpass hname hstands h ih =>
    cases h with
    | nil =>
      obtain ⟨folder, es, hnode⟩ := (fs.node?_eq_dir_iff _).2 ⟨searchable, hdir⟩
      refine ⟨_, .stop links hpass fun m target hm hlink => ?_, ?_⟩
      · obtain rfl := Component.name.inj hm
        exact absurd hlink (hstands.sight?_ne_link target)
      · exact (settle_name_eq_ok_iff rfl).2 ⟨hname, rfl, _, hnode, fun _ => rfl⟩
    | cons hpass' _ _ _ =>
      obtain ⟨b, hleads, hsettle⟩ := ih (by simpa using hdir)
      exact ⟨b, .enter links hpass hname hpass' hleads, by simpa using hsettle⟩

theorem of_leads {links : Nat} {slash : Bool} {b : Brink}
    (h : Leads fs .always links dir slash (names.map .name) b) (hsettle : fs.settle b = .ok q)
    (hstands : names = [] ∨ fs.Stands (dir ++ names)) : q = dir ++ names ∧ Straight fs dir names := by
  induction names generalizing dir with
  | nil =>
    cases h
    exact ⟨by simpa using (Except.ok.inj hsettle).symm, .nil dir⟩
  | cons n rest ih =>
    have hstands : fs.Stands (dir ++ n :: rest) := hstands.resolve_left (by simp)
    cases rest with
    | nil =>
      cases h with
      | stop _ hpass _ =>
        obtain ⟨hname, hplace, -⟩ := (settle_name_eq_ok_iff rfl).1 hsettle
        exact ⟨hplace, .cons hpass hname hstands (.nil _)⟩
      | follow _ _ hlink _ _ => exact absurd hlink (hstands.sight?_ne_link _)
    | cons m rest =>
      -- There is more behind this name, so that it stands for a directory and not for a link.
      rw [List.append_cons] at hstands
      obtain ⟨searchable, hdir⟩ := hstands.directory_of_append
      cases h with
      | enter _ hpass hname _ h =>
        obtain ⟨hplace, hrest⟩ := ih h (.inr hstands)
        exact ⟨by simpa using hplace, .cons hpass hname (.of_directory hdir) hrest⟩
      | cross _ _ _ hlink _ =>
        rw [hdir] at hlink
        cases hlink

theorem canonicalFrom (h : Straight fs dir names)
    (hlength : (dir ++ names).path.bytes.length ≤ pathLimit)
    (again : Place → Bool → List Component → Except Fault Place) :
    fs.canonicalFrom again dir false (names.map .name) = .ok (dir ++ names) := by
  induction h with
  | nil dir => simp [FileSystem.canonicalFrom]
  | @cons dir n rest hpass hname hstands h ih =>
    -- No place on the way has a longer path than the last.
    have hshort : ¬ pathLimit < (dir ++ [n]).path.bytes.length := by
      have hle := Place.length_path_mono (⟨rest, by simp⟩ : dir ++ [n] <+: dir ++ n :: rest)
      omega
    have hnone : fs.linkTarget? (dir ++ [n]) = none := by
      refine Option.eq_none_iff_forall_ne_some.2 fun target hlink => ?_
      exact hstands.sight?_ne_link target ((fs.linkTarget?_eq_some_iff _ _).1 hlink)
    obtain ⟨sight, hsight, -⟩ := hstands
    obtain ⟨node, hnode, -⟩ := Option.map_eq_some_iff.1 hsight
    have hfound := nodeNamed_eq_ok_iff.2 ⟨hpass, hname, hnode⟩
    have hasked : asksForDirectory false (rest.map .name) = false := by cases rest <;> rfl
    have hrest := ih (by simpa using hlength)
    rw [List.append_assoc, List.singleton_append] at hrest
    rw [List.map_cons, canonicalFrom_name, if_neg hshort]
    simp only [hfound, hnone, hasked, Bool.false_and, Bool.false_eq_true, if_false]
    exact hrest

end Straight

end FileSystem
end FileShell
