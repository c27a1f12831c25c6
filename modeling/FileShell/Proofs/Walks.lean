import FileShell.FileSystem.Walk
import Mathlib.Tactic.SplitIfs

namespace FileShell

/-- All that a walk sees of a node. -/
inductive Sight where
  | directory (searchable : Bool)
  | link (target : Path)
  | other
deriving DecidableEq, Repr

namespace FileSystem

def sightOf (fs : FileSystem) : Node → Sight
  | .dir folder _ => .directory folder.mode.searchable
  | .leaf id =>
    match (fs.leaves id).body with
    | .link target => .link target
    | _ => .other

def sight? (fs : FileSystem) (place : Place) : Option Sight := (fs.node? place).map fs.sightOf

theorem pass_eq_ok_iff (fs : FileSystem) (dir : Place) :
    fs.pass dir = .ok () ↔ fs.sight? dir = some (.directory true) := by
  unfold pass sight?
  cases fs.node? dir with
  | none => simp [fail]
  | some node =>
    cases node with
    | leaf id =>
      simp only [fail, Option.map_some, sightOf]
      split <;> simp
    | dir folder es => cases h : folder.mode.searchable <;> simp [fail, sightOf, h]

theorem linkTarget?_eq_some_iff (fs : FileSystem) (place : Place) (target : Path) :
    fs.linkTarget? place = some target ↔ fs.sight? place = some (.link target) := by
  unfold linkTarget? leaf? sight?
  cases fs.node? place with
  | none => simp
  | some node =>
    cases node with
    | leaf id =>
      cases h : fs.leaves id with
      | mk body mode modified => cases body <;> simp [sightOf, h]
    | dir folder es => simp [sightOf]

theorem node?_eq_dir_iff (fs : FileSystem) (place : Place) :
    (∃ folder es, fs.node? place = some (.dir folder es)) ↔
      ∃ searchable, fs.sight? place = some (.directory searchable) := by
  unfold sight?
  cases fs.node? place with
  | none => simp
  | some node =>
    cases node with
    | leaf id =>
      simp only [Option.map_some, sightOf]
      split <;> simp
    | dir folder es => simp [sightOf]

theorem node?_of_sight?_link {fs : FileSystem} {place : Place} {target : Path}
    (h : fs.sight? place = some (.link target)) : ∃ id, fs.node? place = some (.leaf id) := by
  obtain ⟨node, hnode, hsight⟩ := Option.map_eq_some_iff.1 h
  cases node with
  | leaf id => exact ⟨id, hnode⟩
  | dir folder es => simp [sightOf] at hsight

/-- The steps of a walk that succeeds: from a directory, over the components that remain, to the
brink, with so many links that may still be replaced. -/
inductive Leads (fs : FileSystem) (following : Following) :
    Nat → Place → Bool → List Component → Brink → Prop where
  | start (links : Nat) (dir : Place) (slash : Bool) :
      Leads fs following links dir slash [] ⟨dir, none, slash⟩
  | stop (links : Nat) {dir : Place} {slash : Bool} {c : Component}
      (hpass : fs.sight? dir = some (.directory true))
      (hlast : ∀ n target, c = .name n → fs.sight? (dir ++ [n]) = some (.link target) →
        following.follows slash = false) :
      Leads fs following links dir slash [c] ⟨dir, some c, slash⟩
  | follow (links : Nat) {dir : Place} {slash : Bool} {n : FileName} {target : Path} {b : Brink}
      (hpass : fs.sight? dir = some (.directory true))
      (hlink : fs.sight? (dir ++ [n]) = some (.link target))
      (hfollow : following.follows slash = true)
      (h : Leads fs following links (origin dir target) (slash || target.endsInSlash)
        target.components b) :
      Leads fs following (links + 1) dir slash [.name n] b
  | here (links : Nat) {dir : Place} {slash : Bool} {next : Component} {rest : List Component}
      {b : Brink} (hpass : fs.sight? dir = some (.directory true))
      (h : Leads fs following links dir slash (next :: rest) b) :
      Leads fs following links dir slash (.here :: next :: rest) b
  | up (links : Nat) {dir : Place} {slash : Bool} {next : Component} {rest : List Component}
      {b : Brink} (hpass : fs.sight? dir = some (.directory true))
      (h : Leads fs following links dir.parent slash (next :: rest) b) :
      Leads fs following links dir slash (.up :: next :: rest) b
  | enter (links : Nat) {dir : Place} {slash searchable : Bool} {n : FileName} {next : Component}
      {rest : List Component} {b : Brink} (hpass : fs.sight? dir = some (.directory true))
      (hname : n.length ≤ nameLimit)
      (hdir : fs.sight? (dir ++ [n]) = some (.directory searchable))
      (h : Leads fs following links (dir ++ [n]) slash (next :: rest) b) :
      Leads fs following links dir slash (.name n :: next :: rest) b
  | cross (links : Nat) {dir : Place} {slash : Bool} {n : FileName} {target : Path}
      {next : Component} {rest : List Component} {b : Brink}
      (hpass : fs.sight? dir = some (.directory true)) (hname : n.length ≤ nameLimit)
      (hlink : fs.sight? (dir ++ [n]) = some (.link target))
      (h : Leads fs following links (origin dir target) slash
        (target.components ++ next :: rest) b) :
      Leads fs following (links + 1) dir slash (.name n :: next :: rest) b

theorem pass_eq (fs : FileSystem) (dir : Place) :
    fs.pass dir =
      match fs.sight? dir with
      | none => fail .missing
      | some (.directory searchable) => if searchable then .ok () else fail .denied
      | some _ => fail .notDirectory := by
  unfold pass sight?
  cases fs.node? dir with
  | none => rfl
  | some node =>
    cases node with
    | leaf id =>
      simp only [Option.map_some, sightOf]
      cases (fs.leaves id).body <;> rfl
    | dir folder es => rfl

theorem linkTarget?_eq (fs : FileSystem) (place : Place) :
    fs.linkTarget? place =
      match fs.sight? place with
      | some (.link target) => some target
      | _ => none := by
  ext target
  rw [linkTarget?_eq_some_iff]
  split
  · next other hsight => simp [hsight]
  · next hnone => simpa using hnone target

/-- What a walk does at a component: it fails or ends there, goes on from a place with the components that
remain, or starts behind a link, whose target may ask for a directory. -/
inductive Turn where
  | fail (fault : Fault)
  | stop
  | enter (dir : Place)
  | cross (start : Place) (asked : Bool) (cs : List Component)

/-- The turn at the last component of a path, known by whether a link there is followed. -/
def lastTurn (fs : FileSystem) (follows : Bool) (dir : Place) : Component → Turn
  | .here | .up => .stop
  | .name n =>
    match fs.sight? (dir ++ [n]) with
    | some (.link target) =>
      if follows then .cross (origin dir target) target.endsInSlash target.components else .stop
    | _ => .stop

/-- The turn at a component with others behind it. -/
def innerTurn (fs : FileSystem) (dir : Place) (rest : List Component) : Component → Turn
  | .here => .enter dir
  | .up => .enter dir.parent
  | .name n =>
    if nameLimit < n.length then .fail (.os .nameTooLong)
    else
      match fs.sight? (dir ++ [n]) with
      | none => .fail (.os .missing)
      | some (.directory _) => .enter (dir ++ [n])
      | some (.link target) => .cross (origin dir target) false (target.components ++ rest)
      | some .other => .fail (.os .notDirectory)

def turn (fs : FileSystem) (follows : Bool) (dir : Place) (c : Component) (rest : List Component) :
    Turn :=
  match fs.pass dir with
  | .error fault => .fail fault
  | .ok () =>
    match rest with
    | [] => fs.lastTurn follows dir c
    | _ :: _ => fs.innerTurn dir rest c

/-- A walk is one turn after another. -/
theorem walkFrom_cons (fs : FileSystem) (following : Following)
    (again : Place → Bool → List Component → Except Fault Brink) (dir : Place) (slash : Bool)
    (c : Component) (rest : List Component) :
    fs.walkFrom following again dir slash (c :: rest) =
      match fs.turn (following.follows slash) dir c rest with
      | .fail fault => .error fault
      | .stop => .ok ⟨dir, some c, slash⟩
      | .enter next => fs.walkFrom following again next slash rest
      | .cross start asked cs => again start (slash || asked) cs := by
  unfold turn
  cases rest with
  | nil =>
    unfold walkFrom
    cases fs.pass dir with
    | error fault => rfl
    | ok u =>
      cases c with
      | name n =>
        dsimp only [lastTurn]
        rw [linkTarget?_eq]
        cases fs.sight? (dir ++ [n]) with
        | none => rfl
        | some sight =>
          cases sight with
          | link target => cases following.follows slash <;> rfl
          | _ => rfl
      | _ => rfl
  | cons next rest =>
    cases c with
    | name n =>
      rw [walkFrom, linkTarget?_eq]
      unfold sight?
      cases fs.pass dir with
      | error fault => rfl
      | ok u =>
        dsimp only [innerTurn]
        split_ifs
        · rfl
        · unfold sight?
          cases fs.node? (dir ++ [n]) with
          | none => rfl
          | some node =>
            cases node with
            | dir folder es => rfl
            | leaf id =>
              simp only [Option.map_some, sightOf]
              cases (fs.leaves id).body with
              | link target =>
                dsimp only
                rw [Bool.or_false]
              | _ => rfl
    | _ =>
      rw [walkFrom]
      cases fs.pass dir <;> rfl

theorem lastTurn_eq_stop {fs : FileSystem} {follows : Bool} {dir : Place} {c : Component}
    (hlast : ∀ n target, c = .name n → fs.sight? (dir ++ [n]) = some (.link target) →
      follows = false) :
    fs.lastTurn follows dir c = .stop := by
  cases c with
  | name n =>
    rw [lastTurn]
    split
    · next target hlink => rw [hlast n target rfl hlink, if_neg Bool.false_ne_true]
    · rfl
  | _ => rfl

/-- What follows more links goes on alike, except where the other ends. -/
theorem turn_eq_or_stop {fs : FileSystem} {less more : Bool} (hmore : less = true → more = true)
    (dir : Place) (c : Component) (rest : List Component) :
    fs.turn more dir c rest = fs.turn less dir c rest ∨ fs.turn less dir c rest = .stop := by
  cases less with
  | true => exact .inl (by rw [hmore rfl])
  | false =>
    unfold turn
    cases fs.pass dir with
    | error fault => exact .inl rfl
    | ok u =>
      cases rest with
      | nil => exact .inr (lastTurn_eq_stop fun _ _ _ _ => rfl)
      | cons next rest => exact .inl rfl

section Turns

variable {fs : FileSystem} {following : Following} {follows slash : Bool} {dir : Place}
  {c next : Component} {rest : List Component} (hpass : fs.sight? dir = some (.directory true))
include hpass

theorem turn_last : fs.turn follows dir c [] = fs.lastTurn follows dir c := by
  unfold turn
  rw [(fs.pass_eq_ok_iff dir).2 hpass]

theorem turn_inner :
    fs.turn follows dir c (next :: rest) = fs.innerTurn dir (next :: rest) c := by
  unfold turn
  rw [(fs.pass_eq_ok_iff dir).2 hpass]

theorem turn_name {n : FileName} (hname : n.length ≤ nameLimit) :
    fs.turn follows dir (.name n) (next :: rest) =
      match fs.sight? (dir ++ [n]) with
      | none => .fail (.os .missing)
      | some (.directory _) => .enter (dir ++ [n])
      | some (.link target) => .cross (origin dir target) false (target.components ++ next :: rest)
      | some .other => .fail (.os .notDirectory) := by
  rw [turn_inner hpass, innerTurn, if_neg (Nat.not_lt.2 hname)]

end Turns

/-- What a turn says is a step of the walk, unless it fails. -/
def Turn.IsStep (fs : FileSystem) (following : Following) (links : Nat) (dir : Place) (slash : Bool)
    (c : Component) (rest : List Component) : Turn → Prop
  | .fail _ => True
  | .stop => Leads fs following links dir slash (c :: rest) ⟨dir, some c, slash⟩
  | .enter next => ∀ b, Leads fs following links next slash rest b →
      Leads fs following links dir slash (c :: rest) b
  | .cross start asked cs => ∀ fewer b, links = fewer + 1 →
      Leads fs following fewer start (slash || asked) cs b →
        Leads fs following links dir slash (c :: rest) b

section IsStep

variable {fs : FileSystem} {following : Following} {links : Nat} {dir : Place} {slash : Bool}
  {c : Component}

theorem isStep_lastTurn (hpass : fs.sight? dir = some (.directory true)) :
    (fs.lastTurn (following.follows slash) dir c).IsStep fs following links dir slash c [] := by
  cases c with
  | name n =>
    rw [lastTurn]
    split
    · next target hlink =>
      split_ifs with hfollow
      · rintro fewer b rfl h
        exact .follow fewer hpass hlink hfollow h
      · exact .stop links hpass fun _ _ _ _ => Bool.eq_false_iff.2 hfollow
    · next hnone =>
      refine .stop links hpass fun m target hm hlink => ?_
      cases hm
      exact absurd hlink (hnone target)
  | _ => exact .stop links hpass nofun

theorem isStep_innerTurn (hpass : fs.sight? dir = some (.directory true)) (next : Component)
    (rest : List Component) :
    (fs.innerTurn dir (next :: rest) c).IsStep fs following links dir slash c (next :: rest) := by
  cases c with
  | here => exact fun b h => .here links hpass h
  | up => exact fun b h => .up links hpass h
  | name n =>
    rw [innerTurn]
    split_ifs with hlong
    · trivial
    · have hname := Nat.le_of_not_lt hlong
      split
      · trivial
      · next searchable hdir => exact fun b h => .enter links hpass hname hdir h
      · next target hlink =>
        rintro fewer b rfl h
        rw [Bool.or_false] at h
        exact .cross fewer hpass hname hlink h
      · trivial

theorem isStep_turn (rest : List Component) :
    (fs.turn (following.follows slash) dir c rest).IsStep fs following links dir slash c rest := by
  unfold turn
  cases hdir : fs.pass dir with
  | error fault => trivial
  | ok u =>
    have hpass := (fs.pass_eq_ok_iff dir).1 hdir
    cases rest with
    | nil => exact isStep_lastTurn hpass
    | cons next rest => exact isStep_innerTurn hpass next rest

/-- A walk makes the steps of a derivation, if what goes on behind a link does. -/
theorem leads_of_walkFrom {again : Place → Bool → List Component → Except Fault Brink}
    (hagain : ∀ dir slash cs b, again dir slash cs = .ok b →
      ∃ fewer, links = fewer + 1 ∧ Leads fs following fewer dir slash cs b)
    {cs : List Component} {b : Brink} (h : fs.walkFrom following again dir slash cs = .ok b) :
    Leads fs following links dir slash cs b := by
  -- Behind a link `again` goes on, so that the induction here is on the components alone.
  induction cs generalizing dir with
  | nil =>
    obtain rfl := Except.ok.inj h
    exact .start links dir slash
  | cons c rest ih =>
    have hstep : (fs.turn (following.follows slash) dir c rest).IsStep fs following links dir slash c
      rest := isStep_turn rest
    rw [walkFrom_cons] at h
    cases hturn : fs.turn (following.follows slash) dir c rest with
    | fail fault =>
      rw [hturn] at h
      cases h
    | stop =>
      rw [hturn] at h hstep
      obtain rfl := Except.ok.inj h
      exact hstep
    | enter next =>
      rw [hturn] at h hstep
      exact hstep b (ih h)
    | cross start asked cs =>
      rw [hturn] at h hstep
      obtain ⟨fewer, hlinks, hleads⟩ := hagain _ _ _ _ h
      exact hstep fewer b hlinks hleads

theorem leads_of_walk {cs : List Component} {b : Brink}
    (h : fs.walk following links dir slash cs = .ok b) :
    Leads fs following links dir slash cs b := by
  induction links generalizing dir slash cs b with
  | zero => exact leads_of_walkFrom (fun _ _ _ _ hfail => by simp [fail] at hfail) h
  | succ links ih => exact leads_of_walkFrom (fun _ _ _ _ hagain => ⟨links, rfl, ih hagain⟩) h

end IsStep

/-- What goes on behind a link when so many may still be replaced. -/
def beyond (fs : FileSystem) (following : Following) :
    Nat → Place → Bool → List Component → Except Fault Brink
  | 0 => fun _ _ _ => fail .tooManyLinks
  | links + 1 => fs.walk following links

theorem walk_eq_walkFrom (fs : FileSystem) (following : Following) (links : Nat) :
    fs.walk following links = fs.walkFrom following (beyond fs following links) := by
  cases links <;> rfl

section Step

variable (fs : FileSystem) (following : Following) (links : Nat) {dir : Place} {slash : Bool}
  {next : Component} {rest : List Component}

theorem walk_of_missing {c : Component} (hdir : fs.sight? dir = none) :
    fs.walk following links dir slash (c :: rest) = fail .missing := by
  have hpass : fs.pass dir = fail .missing := by rw [pass_eq, hdir]
  rw [walk_eq_walkFrom, walkFrom_cons]
  unfold turn
  rw [hpass]
  rfl

theorem walk_here (hpass : fs.sight? dir = some (.directory true)) :
    fs.walk following links dir slash (.here :: next :: rest) =
      fs.walk following links dir slash (next :: rest) := by
  rw [walk_eq_walkFrom, walkFrom_cons, turn_inner hpass, innerTurn]

theorem walk_up (hpass : fs.sight? dir = some (.directory true)) :
    fs.walk following links dir slash (.up :: next :: rest) =
      fs.walk following links dir.parent slash (next :: rest) := by
  rw [walk_eq_walkFrom, walkFrom_cons, turn_inner hpass, innerTurn]

theorem walk_enter {n : FileName} {searchable : Bool}
    (hpass : fs.sight? dir = some (.directory true)) (hname : n.length ≤ nameLimit)
    (hdir : fs.sight? (dir ++ [n]) = some (.directory searchable)) :
    fs.walk following links dir slash (.name n :: next :: rest) =
      fs.walk following links (dir ++ [n]) slash (next :: rest) := by
  rw [walk_eq_walkFrom, walkFrom_cons, turn_name hpass hname, hdir]

theorem walk_cross {n : FileName} {target : Path} (hpass : fs.sight? dir = some (.directory true))
    (hname : n.length ≤ nameLimit) (hlink : fs.sight? (dir ++ [n]) = some (.link target)) :
    fs.walk following (links + 1) dir slash (.name n :: next :: rest) =
      fs.walk following links (origin dir target) slash (target.components ++ next :: rest) := by
  rw [walk_eq_walkFrom fs following (links + 1), walkFrom_cons, turn_name hpass hname, hlink]
  dsimp only
  rw [Bool.or_false, beyond]

theorem walk_of_name_missing {n : FileName} (hpass : fs.sight? dir = some (.directory true))
    (hname : n.length ≤ nameLimit) (hgone : fs.sight? (dir ++ [n]) = none) :
    fs.walk following links dir slash (.name n :: next :: rest) = fail .missing := by
  rw [walk_eq_walkFrom, walkFrom_cons, turn_name hpass hname, hgone]
  rfl

end Step

theorem walk_of_leads {fs : FileSystem} {following : Following} {links : Nat} {dir : Place}
    {slash : Bool} {cs : List Component} {b : Brink}
    (h : Leads fs following links dir slash cs b) :
    fs.walk following links dir slash cs = .ok b := by
  induction h with
  | start links dir slash => rw [walk_eq_walkFrom]; rfl
  | @stop links dir slash c hpass hlast =>
    rw [walk_eq_walkFrom, walkFrom_cons, turn_last hpass, lastTurn_eq_stop hlast]
  | follow links hpass hlink hfollow h ih =>
    rw [walk_eq_walkFrom, walkFrom_cons, turn_last hpass, lastTurn, hlink, hfollow]
    exact ih
  | here links hpass h ih => rwa [walk_here fs _ _ hpass]
  | up links hpass h ih => rwa [walk_up fs _ _ hpass]
  | enter links hpass hname hdir h ih => rwa [walk_enter fs _ _ hpass hname hdir]
  | cross links hpass hname hlink h ih => rwa [walk_cross fs _ _ hpass hname hlink]

/-- Walks are derivations. -/
theorem walk_eq_ok_iff {fs : FileSystem} {following : Following} {links : Nat} {dir : Place}
    {slash : Bool} {cs : List Component} {b : Brink} :
    fs.walk following links dir slash cs = .ok b ↔ Leads fs following links dir slash cs b :=
  ⟨leads_of_walk, walk_of_leads⟩

/-- One file system lies within another if a walk sees in the second all that it sees in the
first. -/
structure Within (fs larger : FileSystem) : Prop where
  base : larger.base = fs.base
  sight : ∀ place sight, fs.sight? place = some sight → larger.sight? place = some sight

/-- A walk goes the same way in a larger file system, if no link stands there where the walk ends
at nothing. -/
theorem Leads.mono {fs larger : FileSystem} (hsub : Within fs larger) {following : Following}
    {links : Nat} {dir : Place} {slash : Bool} {cs : List Component} {b : Brink}
    (h : Leads fs following links dir slash cs b)
    (hlast : ∀ n target, b.last = some (.name n) →
      larger.sight? (b.dir ++ [n]) = some (.link target) → fs.sight? (b.dir ++ [n]) ≠ none) :
    Leads larger following links dir slash cs b := by
  induction h with
  | start links dir slash => exact .start links dir slash
  | @stop links dir slash c hpass hfollow =>
    refine .stop links (hsub.sight _ _ hpass) fun n target hn htarget => ?_
    -- What the walk ends at need not be there yet, but may then not turn up as a link.
    cases hsight : fs.sight? (dir ++ [n]) with
    | none => exact absurd hsight (hlast n target (by rw [hn]) htarget)
    | some sight =>
      rw [hsub.sight _ _ hsight] at htarget
      exact hfollow n target hn (by rw [hsight, htarget])
  | follow links hpass hlink hfollow h ih =>
    exact .follow links (hsub.sight _ _ hpass) (hsub.sight _ _ hlink) hfollow (ih hlast)
  | here links hpass h ih => exact .here links (hsub.sight _ _ hpass) (ih hlast)
  | up links hpass h ih => exact .up links (hsub.sight _ _ hpass) (ih hlast)
  | enter links hpass hname hdir h ih =>
    exact .enter links (hsub.sight _ _ hpass) hname (hsub.sight _ _ hdir) (ih hlast)
  | cross links hpass hname hlink h ih =>
    exact .cross links (hsub.sight _ _ hpass) hname (hsub.sight _ _ hlink) (ih hlast)

theorem Leads.pass {fs : FileSystem} {following : Following} {links : Nat} {dir : Place}
    {slash : Bool} {cs : List Component} {b : Brink}
    (h : Leads fs following links dir slash cs b) (hlast : b.last ≠ none) :
    fs.sight? b.dir = some (.directory true) := by
  induction h with
  | start links dir slash => exact absurd rfl hlast
  | stop links hpass _ => exact hpass
  | follow _ _ _ _ _ ih => exact ih hlast
  | here _ _ _ ih => exact ih hlast
  | up _ _ _ ih => exact ih hlast
  | enter _ _ _ _ _ ih => exact ih hlast
  | cross _ _ _ _ _ ih => exact ih hlast

theorem Leads.follows_eq_false {fs : FileSystem} {following : Following} {links : Nat}
    {dir : Place} {slash : Bool} {cs : List Component} {b : Brink} {n : FileName} {target : Path}
    (h : Leads fs following links dir slash cs b) (hlast : b.last = some (.name n))
    (hlink : fs.sight? (b.dir ++ [n]) = some (.link target)) :
    following.follows b.slash = false := by
  induction h with
  | start links dir slash => cases hlast
  | stop links hpass hfollow => exact hfollow n target (by simpa using hlast) hlink
  | follow _ _ _ _ _ ih => exact ih hlast hlink
  | here _ _ _ ih => exact ih hlast hlink
  | up _ _ _ ih => exact ih hlast hlink
  | enter _ _ _ _ _ ih => exact ih hlast hlink
  | cross _ _ _ _ _ ih => exact ih hlast hlink

theorem Leads.following_mono {fs : FileSystem} {following more : Following}
    (hmore : ∀ slash, following.follows slash = true → more.follows slash = true) {links : Nat}
    {dir : Place} {slash : Bool} {cs : List Component} {b : Brink}
    (h : Leads fs following links dir slash cs b)
    (hbrink : ∀ n target, b.last = some (.name n) →
      fs.sight? (b.dir ++ [n]) = some (.link target) → more.follows b.slash = false) :
    Leads fs more links dir slash cs b := by
  induction h with
  | start links dir slash => exact .start links dir slash
  | stop links hpass _ =>
    exact .stop links hpass fun n target hn htarget => hbrink n target (by rw [hn]) htarget
  | follow links hpass hlink hfollow h ih =>
    exact .follow links hpass hlink (hmore _ hfollow) (ih hbrink)
  | here links hpass h ih => exact .here links hpass (ih hbrink)
  | up links hpass h ih => exact .up links hpass (ih hbrink)
  | enter links hpass hname hdir h ih => exact .enter links hpass hname hdir (ih hbrink)
  | cross links hpass hname hlink h ih => exact .cross links hpass hname hlink (ih hbrink)

/-- Where a walk gets through, one that follows no link at the end does too, and ends either there
or at a link. -/
theorem Leads.exists_never {fs : FileSystem} {following : Following} {links : Nat} {dir : Place}
    {slash : Bool} {cs : List Component} {b : Brink}
    (h : Leads fs following links dir slash cs b) :
    ∃ b', Leads fs .never links dir slash cs b' ∧
      (b' = b ∨ ∃ n target, b'.last = some (.name n) ∧
        fs.sight? (b'.dir ++ [n]) = some (.link target)) := by
  induction h with
  | start links dir slash => exact ⟨_, .start links dir slash, .inl rfl⟩
  | stop links hpass _ => exact ⟨_, .stop links hpass fun _ _ _ _ => rfl, .inl rfl⟩
  | follow links hpass hlink _ _ _ =>
    exact ⟨_, .stop (links + 1) hpass fun _ _ _ _ => rfl, .inr ⟨_, _, rfl, hlink⟩⟩
  | here links hpass h ih =>
    obtain ⟨b', hb, hend⟩ := ih
    exact ⟨b', .here links hpass hb, hend⟩
  | up links hpass h ih =>
    obtain ⟨b', hb, hend⟩ := ih
    exact ⟨b', .up links hpass hb, hend⟩
  | enter links hpass hname hdir h ih =>
    obtain ⟨b', hb, hend⟩ := ih
    exact ⟨b', .enter links hpass hname hdir hb, hend⟩
  | cross links hpass hname hlink h ih =>
    obtain ⟨b', hb, hend⟩ := ih
    exact ⟨b', .cross links hpass hname hlink hb, hend⟩

theorem Leads.last_mem {fs : FileSystem} {following : Following} {links : Nat} {dir : Place}
    {slash : Bool} {cs : List Component} {b : Brink} {c : Component}
    (h : Leads fs following links dir slash cs b) (hlast : b.last = some c) :
    c ∈ cs ∨ ∃ place target, fs.sight? place = some (.link target) ∧ c ∈ target.components := by
  induction h with
  | start links dir slash => cases hlast
  | stop links hpass _ => exact .inl (by simpa using hlast.symm)
  | follow links hpass hlink hfollow h ih =>
    exact (ih hlast).elim (fun hc => .inr ⟨_, _, hlink, hc⟩) .inr
  | here links hpass h ih => exact (ih hlast).imp_left (List.mem_cons_of_mem _)
  | up links hpass h ih => exact (ih hlast).imp_left (List.mem_cons_of_mem _)
  | enter links hpass hname hdir h ih => exact (ih hlast).imp_left (List.mem_cons_of_mem _)
  | cross links hpass hname hlink h ih =>
    obtain hc | hc := ih hlast
    · obtain hc | hc := List.mem_append.1 hc
      · exact .inr ⟨_, _, hlink, hc⟩
      · exact .inl (List.mem_cons_of_mem _ hc)
    · exact .inr hc

section Alike

variable {fs other : FileSystem} (hsight : ∀ place, fs.sight? place = other.sight? place)
include hsight

theorem pass_congr (dir : Place) : fs.pass dir = other.pass dir := by
  rw [pass_eq, pass_eq, hsight]

theorem linkTarget?_congr (place : Place) : fs.linkTarget? place = other.linkTarget? place := by
  rw [linkTarget?_eq, linkTarget?_eq, hsight]

theorem turn_congr (follows : Bool) (dir : Place) (c : Component) (rest : List Component) :
    fs.turn follows dir c rest = other.turn follows dir c rest := by
  unfold turn
  rw [pass_congr hsight]
  cases c with
  | name n => simp only [lastTurn, innerTurn, hsight]
  | _ => rfl

theorem walkFrom_congr (following : Following)
    (again : Place → Bool → List Component → Except Fault Brink) (dir : Place) (slash : Bool)
    (cs : List Component) :
    fs.walkFrom following again dir slash cs = other.walkFrom following again dir slash cs := by
  induction cs generalizing dir with
  | nil => rfl
  | cons c rest ih =>
    rw [walkFrom_cons, walkFrom_cons, turn_congr hsight]
    cases other.turn (following.follows slash) dir c rest with
    | enter next => exact ih next
    | _ => rfl

theorem walk_congr (following : Following) (links : Nat) :
    fs.walk following links = other.walk following links := by
  induction links with
  | zero =>
    funext dir slash cs
    exact walkFrom_congr hsight _ _ _ _ _
  | succ links ih =>
    funext dir slash cs
    rw [walk, walk, ih]
    exact walkFrom_congr hsight _ _ _ _ _

end Alike

/-- Where less is there, a walk that follows no link at its end goes the same way, or comes upon
something that is missing. -/
theorem Leads.fewer {fs fewer : FileSystem}
    (hfewer : ∀ place, fewer.sight? place = none ∨ fewer.sight? place = fs.sight? place)
    {links : Nat} {dir : Place} {slash : Bool} {cs : List Component} {b : Brink}
    (h : Leads fs .never links dir slash cs b) :
    fewer.walk .never links dir slash cs = .ok b ∨
      fewer.walk .never links dir slash cs = fail .missing := by
  have hseen {place : Place} {sight : Sight} (hsight : fs.sight? place = some sight) :
      fewer.sight? place = none ∨ fewer.sight? place = some sight := hsight ▸ hfewer place
  induction h with
  | start links dir slash => exact .inl (walk_of_leads (.start links dir slash))
  | stop links hpass _ =>
    obtain hgone | hpass := hseen hpass
    · exact .inr (walk_of_missing fewer _ _ hgone)
    · exact .inl (walk_of_leads (.stop links hpass fun _ _ _ _ => rfl))
  | follow links hpass hlink hfollow h ih => cases hfollow
  | here links hpass h ih =>
    obtain hgone | hpass := hseen hpass
    · exact .inr (walk_of_missing fewer _ _ hgone)
    · rwa [walk_here fewer _ _ hpass]
  | up links hpass h ih =>
    obtain hgone | hpass := hseen hpass
    · exact .inr (walk_of_missing fewer _ _ hgone)
    · rwa [walk_up fewer _ _ hpass]
  | enter links hpass hname hdir h ih =>
    obtain hgone | hpass := hseen hpass
    · exact .inr (walk_of_missing fewer _ _ hgone)
    obtain hgone | hdir := hseen hdir
    · exact .inr (walk_of_name_missing fewer _ _ hpass hname hgone)
    · rwa [walk_enter fewer _ _ hpass hname hdir]
  | cross links hpass hname hlink h ih =>
    obtain hgone | hpass := hseen hpass
    · exact .inr (walk_of_missing fewer _ _ hgone)
    obtain hgone | hlink := hseen hlink
    · exact .inr (walk_of_name_missing fewer _ _ hpass hname hgone)
    · rwa [walk_cross fewer _ _ hpass hname hlink]

end FileSystem
end FileShell
