import FileShell.Proofs.Walks

namespace FileShell

theorem bind_eq_ok_iff {α β : Type} {x : Except Fault α} {f : α → Except Fault β} {b : β} :
    x >>= f = .ok b ↔ ∃ a, x = .ok a ∧ f a = .ok b := by
  cases x with
  | error fault => exact ⟨fun h => (nomatch h), fun ⟨_, h, _⟩ => (nomatch h)⟩
  | ok a => exact ⟨fun h => ⟨a, rfl, h⟩, fun ⟨_, ha, h⟩ => Except.ok.inj ha ▸ h⟩

namespace FileSystem

@[simp] theorem fail_ne_ok {α : Type} (errno : Errno) (a : α) :
    (fail errno : Except Fault α) ≠ .ok a := nofun

@[simp] theorem ok_bind {α β : Type} (a : α) (f : α → Except Fault β) :
    (.ok a : Except Fault α) >>= f = f a := rfl

@[simp] theorem fail_bind {α β : Type} (errno : Errno) (f : α → Except Fault β) :
    (fail errno : Except Fault α) >>= f = fail errno := rfl

@[simp] theorem map_fail {α β : Type} (errno : Errno) (f : α → β) :
    f <$> (fail errno : Except Fault α) = fail errno := rfl

variable {fs larger : FileSystem} {following : Following} {path : Path} {place : Place} {b : Brink}

theorem sightOf_eq_directory_iff (fs : FileSystem) (node : Node) :
    (∃ searchable, fs.sightOf node = .directory searchable) ↔ node.isDir = true := by
  cases node with
  | leaf id =>
    simp only [sightOf, Node.isDir]
    split <;> simp
  | dir folder es => simp [sightOf, Node.isDir]

theorem settle_name_eq_ok_iff {n : FileName} (hlast : b.last = some (.name n)) :
    fs.settle b = .ok place ↔ n.length ≤ nameLimit ∧ place = b.dir ++ [n] ∧
      ∃ node, fs.node? (b.dir ++ [n]) = some node ∧ (b.slash = true → node.isDir = true) := by
  unfold settle
  rw [hlast]
  dsimp only
  by_cases hlong : nameLimit < n.length
  · rw [if_pos hlong]
    exact ⟨fun h => (nomatch h), fun h => absurd hlong (Nat.not_lt.2 h.1)⟩
  rw [if_neg hlong]
  have hname := Nat.le_of_not_lt hlong
  cases hnode : fs.node? (b.dir ++ [n]) with
  | none => exact ⟨fun h => (nomatch h), fun ⟨_, _, node, h, _⟩ => (nomatch h)⟩
  | some node =>
    by_cases hmiss : (b.slash && !node.isDir) = true
    · simp only [if_pos hmiss]
      refine ⟨fun h => (nomatch h), fun ⟨_, _, node', h, hdir⟩ => ?_⟩
      obtain rfl := Option.some.inj h
      simp_all
    · simp only [if_neg hmiss]
      exact ⟨fun h => ⟨hname, (Except.ok.inj h).symm, node, rfl, by simpa using hmiss⟩,
        fun ⟨_, hplace, _⟩ => by rw [hplace]⟩

theorem settle_mono (hsub : Within fs larger) (h : fs.settle b = .ok place) :
    larger.settle b = .ok place := by
  cases hlast : b.last with
  | none => simpa [settle, hlast] using h
  | some c =>
    cases c with
    | name n =>
      rw [settle_name_eq_ok_iff hlast] at h ⊢
      obtain ⟨hname, hplace, node, hnode, hslash⟩ := h
      have hsight := hsub.sight (b.dir ++ [n]) (fs.sightOf node) (by simp [sight?, hnode])
      obtain ⟨node', hnode', hsame⟩ := Option.map_eq_some_iff.1 hsight
      refine ⟨hname, hplace, node', hnode', fun hs => ?_⟩
      rw [← sightOf_eq_directory_iff larger, hsame, sightOf_eq_directory_iff]
      exact hslash hs
    | _ => simpa [settle, hlast] using h

theorem sight?_ne_none_of_settle {n : FileName} (h : fs.settle b = .ok place)
    (hlast : b.last = some (.name n)) : fs.sight? (b.dir ++ [n]) ≠ none := by
  obtain ⟨-, -, node, hnode, -⟩ := (settle_name_eq_ok_iff hlast).1 h
  simp [sight?, hnode]

/-- Where the walk of a path starts. -/
def outset (fs : FileSystem) (path : Path) : Place := if path.isAbsolute then [] else fs.base

theorem walkPath_eq_ok_iff :
    fs.walkPath following path = .ok b ↔
      Leads fs following linkLimit (fs.outset path) path.endsInSlash path.components b :=
  walk_eq_ok_iff

theorem outset_of_within (hsub : Within fs larger) (path : Path) :
    larger.outset path = fs.outset path := by
  rw [outset, outset, hsub.base]

theorem walkPath_mono (hsub : Within fs larger) (h : fs.walkPath following path = .ok b)
    (hlast : ∀ n target, b.last = some (.name n) →
      larger.sight? (b.dir ++ [n]) = some (.link target) → fs.sight? (b.dir ++ [n]) ≠ none) :
    larger.walkPath following path = .ok b := by
  rw [walkPath_eq_ok_iff] at h ⊢
  rw [outset_of_within hsub]
  exact h.mono hsub hlast

theorem walkPath_always (h : fs.walkPath .unlessSlashed path = .ok b) (hslash : b.slash = false) :
    fs.walkPath .always path = .ok b := by
  rw [walkPath_eq_ok_iff] at h ⊢
  refine h.following_mono (fun _ _ => rfl) fun n target hlast hlink => ?_
  have hstop := h.follows_eq_false hlast hlink
  simp [Following.follows, hslash] at hstop

theorem locate_eq_ok_iff :
    fs.locate path = .ok place ↔
      accept path = .ok () ∧ ∃ b, fs.walkPath .always path = .ok b ∧ fs.settle b = .ok place := by
  simp only [locate, bind_eq_ok_iff]
  exact ⟨fun ⟨(), h⟩ => h, fun h => ⟨(), h⟩⟩

theorem locateEntry_eq_ok_iff :
    fs.locateEntry path = .ok place ↔
      accept path = .ok () ∧
        ∃ b, fs.walkPath .whenSlashed path = .ok b ∧ fs.settle b = .ok place := by
  simp only [locateEntry, bind_eq_ok_iff]
  exact ⟨fun ⟨(), h⟩ => h, fun h => ⟨(), h⟩⟩

theorem brink_eq_ok_iff :
    fs.brink path = .ok b ↔ accept path = .ok () ∧ fs.walkPath .never path = .ok b := by
  simp only [brink, bind_eq_ok_iff]
  exact ⟨fun ⟨(), h⟩ => h, fun h => ⟨(), h⟩⟩

theorem locate_mono (hsub : Within fs larger) (h : fs.locate path = .ok place) :
    larger.locate path = .ok place := by
  obtain ⟨haccept, b, hwalk, hsettle⟩ := locate_eq_ok_iff.1 h
  exact locate_eq_ok_iff.2 ⟨haccept, b,
    walkPath_mono hsub hwalk fun _ _ hn _ => sight?_ne_none_of_settle hsettle hn,
    settle_mono hsub hsettle⟩

theorem locateEntry_mono (hsub : Within fs larger) (h : fs.locateEntry path = .ok place) :
    larger.locateEntry path = .ok place := by
  obtain ⟨haccept, b, hwalk, hsettle⟩ := locateEntry_eq_ok_iff.1 h
  exact locateEntry_eq_ok_iff.2 ⟨haccept, b,
    walkPath_mono hsub hwalk fun _ _ hn _ => sight?_ne_none_of_settle hsettle hn,
    settle_mono hsub hsettle⟩

theorem locateEntry_of_brink {n : FileName} {node : Node} (hb : fs.brink path = .ok b)
    (hlast : b.last = some (.name n)) (hname : n.length ≤ nameLimit)
    (hnode : fs.node? (b.dir ++ [n]) = some node) (hslash : b.slash = true → node.isDir = true) :
    fs.locateEntry path = .ok (b.dir ++ [n]) := by
  obtain ⟨haccept, hwalk⟩ := brink_eq_ok_iff.1 hb
  refine locateEntry_eq_ok_iff.2 ⟨haccept, b, ?_, ?_⟩
  · rw [walkPath_eq_ok_iff] at hwalk ⊢
    refine hwalk.following_mono (by simp [Following.follows]) fun m target hm hlink => ?_
    rw [hlast, Option.some.injEq, Component.name.injEq] at hm
    subst hm
    -- A slash asks for a directory, so that the walk has no link to follow there.
    cases hs : b.slash with
    | false => rfl
    | true =>
      have hdir := (sightOf_eq_directory_iff fs node).2 (hslash hs)
      simp [sight?, hnode] at hlink
      simp [hlink] at hdir
  · exact (settle_name_eq_ok_iff hlast).2 ⟨hname, rfl, node, hnode, hslash⟩

/-- A path that leads somewhere has a brink. A name there stands for what the path leads to, or for a
link that the path follows for its slash. -/
theorem exists_brink_of_locateEntry (h : fs.locateEntry path = .ok place) :
    ∃ b, fs.brink path = .ok b ∧ ∀ n, b.last = some (.name n) →
      (∃ node, fs.node? (b.dir ++ [n]) = some node) ∧
        (place = b.dir ++ [n] ∨ ∃ target, fs.sight? (b.dir ++ [n]) = some (.link target)) := by
  obtain ⟨haccept, b, hwalk, hsettle⟩ := locateEntry_eq_ok_iff.1 h
  obtain ⟨b', hb, hend⟩ := (walkPath_eq_ok_iff.1 hwalk).exists_never
  refine ⟨b', brink_eq_ok_iff.2 ⟨haccept, walkPath_eq_ok_iff.2 hb⟩, fun n hn => ?_⟩
  obtain rfl | ⟨m, target, hm, hlink⟩ := hend
  · obtain ⟨-, hplace, node, hnode, -⟩ := (settle_name_eq_ok_iff hn).1 hsettle
    exact ⟨⟨node, hnode⟩, .inl hplace⟩
  · obtain rfl : n = m := by simpa [hn] using hm
    obtain ⟨id, hnode⟩ := node?_of_sight?_link hlink
    exact ⟨⟨.leaf id, hnode⟩, .inr ⟨target, hlink⟩⟩

theorem kind_statusOf_leaf (fs : FileSystem) (id : LeafId) :
    (fs.statusOf (.leaf id)).kind ≠ .directory := by
  dsimp only [statusOf, Leaf.kind]
  split <;> simp

section Alike

variable {other : FileSystem} (hbase : fs.base = other.base)
  (hsight : ∀ place, fs.sight? place = other.sight? place)
include hsight

theorem settle_congr (b : Brink) : fs.settle b = other.settle b := by
  unfold settle
  split
  · rfl
  · rfl
  · rfl
  · next n _ =>
    have hsame := hsight (b.dir ++ [n])
    unfold sight? at hsame
    cases hnode : fs.node? (b.dir ++ [n]) with
    | none =>
      rw [hnode, Option.map_none, eq_comm, Option.map_eq_none_iff] at hsame
      rw [hsame]
    | some node =>
      rw [hnode, Option.map_some, eq_comm] at hsame
      obtain ⟨node', hnode', hseen⟩ := Option.map_eq_some_iff.1 hsame
      have hdir : node.isDir = node'.isDir := by
        rw [Bool.eq_iff_iff, ← sightOf_eq_directory_iff fs, ← sightOf_eq_directory_iff other, hseen]
      rw [hnode']
      dsimp only
      rw [hdir]

include hbase

theorem walkPath_congr (following : Following) (path : Path) :
    fs.walkPath following path = other.walkPath following path := by
  rw [walkPath, walkPath, hbase, walk_congr hsight]

theorem brink_congr (path : Path) : fs.brink path = other.brink path := by
  rw [brink, brink, walkPath_congr hbase hsight]

theorem locate_congr (path : Path) : fs.locate path = other.locate path := by
  rw [locate, locate, walkPath_congr hbase hsight, funext (settle_congr hsight)]

theorem locateEntry_congr (path : Path) : fs.locateEntry path = other.locateEntry path := by
  rw [locateEntry, locateEntry, walkPath_congr hbase hsight, funext (settle_congr hsight)]

end Alike

/-- Where less is there, a path has the same brink, or something is missing on its way. -/
theorem brink_of_fewer {fewer : FileSystem} (hbase : fewer.base = fs.base)
    (hfewer : ∀ place, fewer.sight? place = none ∨ fewer.sight? place = fs.sight? place)
    (hb : fs.brink path = .ok b) :
    fewer.brink path = .ok b ∨ fewer.brink path = fail .missing := by
  obtain ⟨haccept, hwalk⟩ := brink_eq_ok_iff.1 hb
  have h := (walkPath_eq_ok_iff.1 hwalk).fewer hfewer
  rw [brink, haccept, ok_bind, walkPath, hbase]
  exact h

end FileSystem
end FileShell
