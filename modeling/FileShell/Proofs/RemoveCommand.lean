import FileShell.Proofs.CommandFrame
import FileShell.Proofs.Removal

namespace FileShell.Command

/-- What `rm` is asked to remove, and whether with all that lies below it. -/
def rmOperand? : List Text → Option (Bool × Text)
  | [] => none
  | [arg] => if arg = recursiveFlag then none else some (false, arg)
  | arg :: target :: _ =>
    if arg = recursiveFlag then some (true, target) else some (false, arg)

theorem runRm_eq (w : World) (args : List Text) :
    runRm w args =
      match rmOperand? args with
      | none => w.refuse rmUsage
      | some (recursive, arg) => removal w recursive (w.session.resolve arg) := by
  match args with
  | [] => rfl
  | [arg] => by_cases harg : arg = recursiveFlag <;> simp [runRm, rmOperand?, harg]
  | arg :: target :: rest => by_cases harg : arg = recursiveFlag <;> simp [runRm, rmOperand?, harg]

/-- How a removal ends: it is refused, or it is done, or it is stopped half way. -/
inductive Removes (w : World) (recursive : Bool) (path : Path) : Effect → Prop where
  | refused (failure : Failure) : Removes w recursive path (w.refuse failure)
  | done (place : Place) (files : FileSystem) (hplace : w.files.locateEntry path = .ok place)
      (hitem : w.files.item? place ≠ none)
      (hgone : (w.files.hollow place).locateEntry path = .ok place →
        w.files.Removed files place)
      (hleft : (w.files.hollow place).locateEntry path ≠ .ok place →
        w.files.Emptied files place)
      (honly : recursive = false →
        w.files.Removed files place ∧ ∀ q, place.Below q → w.files.item? q = none) :
      Removes w recursive path (World.finish { w with files } [])
  | stopped (place : Place) (files : FileSystem) (failure : Failure)
      (hplace : w.files.locateEntry path = .ok place) (hrecursive : recursive = true)
      (hpruned : w.files.Pruned files place) :
      Removes w recursive path (World.refuse { w with files } failure)

theorem entryStatus_eq_ok {fs : FileSystem} {path : Path} {status : Status}
    (h : fs.entryStatus path = .ok status) :
    ∃ place node, fs.locateEntry path = .ok place ∧ fs.node? place = some node ∧
      status = fs.statusOf node := by
  obtain ⟨place, hplace, h⟩ := bind_eq_ok_iff.1 h
  unfold FileSystem.statusAt at h
  split at h
  · next node hnode => exact ⟨place, node, hplace, hnode, (Except.ok.inj h).symm⟩
  · simp at h

theorem Removes.of_removed {w : World} {recursive : Bool} {path : Path} {place : Place}
    {node : Node} {files : FileSystem} (hplace : w.files.locateEntry path = .ok place)
    (hnode : w.files.node? place = some node) (hempty : node.entries = [])
    (hremoved : w.files.Removed files place) :
    Removes w recursive path (World.finish { w with files } []) := by
  have hbelow := FileSystem.item?_below_of_empty hnode hempty
  have hstill : (w.files.hollow place).locateEntry path = .ok place :=
    FileSystem.locateEntry_mono
      ((FileSystem.emptied_hollow hnode).within_of_nothing_below hbelow) hplace
  exact .done place files hplace (by simp [FileSystem.item?, hnode]) (fun _ => hremoved)
    (fun hne => absurd hstill hne) fun _ => ⟨hremoved, hbelow⟩

theorem removal_removes (w : World) (recursive : Bool) (path : Path)
    (hnames : w.files.HasDistinctNames) :
    Removes w recursive path (removal w recursive path) := by
  unfold removal
  cases hstatus : w.files.entryStatus path with
  | error fault => exact .refused _
  | ok status =>
    obtain ⟨place, node, hplace, hnode, rfl⟩ := entryStatus_eq_ok hstatus
    have hsame {there : Place} (hthere : w.files.locateEntry path = .ok there) : there = place :=
      Except.ok.inj (hthere.symm.trans hplace)
    cases node with
    | leaf id =>
      simp only [w.files.kind_statusOf_leaf id, decide_false]
      cases hfile : w.files.removeFile path with
      | error fault => exact .refused _
      | ok files =>
        obtain ⟨there, id', hthere, -, hremoved⟩ := FileSystem.removed_of_removeFile hfile
        exact .of_removed hplace hnode rfl (hsame hthere ▸ hremoved)
    | dir folder es =>
      have hkind : (w.files.statusOf (.dir folder es)).kind = .directory := rfl
      simp only [hkind, decide_true]
      cases recursive with
      | false =>
        dsimp only
        cases hdir : w.files.removeDirectory path with
        | error fault => exact .refused _
        | ok files =>
          obtain ⟨there, folder', hthere, hempty, hremoved⟩ :=
            FileSystem.removed_of_removeDirectory hdir
          rw [hsame hthere] at hempty hremoved
          exact .of_removed hplace hempty rfl hremoved
      | true =>
        have hitem : w.files.item? place ≠ none := by simp [FileSystem.item?, hnode]
        dsimp only
        obtain ⟨hdone, hstill, hremoved⟩ | ⟨hdone, hlost, hemptied⟩ | ⟨hfailed, hpruned⟩ :=
          FileSystem.removeTree_cases hnames hplace hnode
        · rw [World.leave_of_done w path hdone]
          exact .done place _ hplace hitem (fun _ => hremoved) (fun hne => absurd hstill hne)
            (by simp)
        · rw [World.leave_of_done w path hdone]
          exact .done place _ hplace hitem (fun heq => absurd heq hlost) (fun _ => hemptied)
            (by simp)
        · obtain ⟨fault, hfault⟩ := Option.ne_none_iff_exists'.1 hfailed
          rw [World.leave_of_failed w path hfault]
          exact .stopped place _ _ hplace rfl hpruned

/-- When `rm` is done, nothing is left of the entry that its operand names and of all below it, and
every other entry is as it was; but a directory stays, empty, if the operand leads nowhere once
what was below it is gone. When it fails, all that is gone lay below the directory it was to remove
with its content, and nothing else has changed. -/
theorem rm_contained (s : Surroundings) (w : World) (args : List Text)
    (hnames : w.files.HasDistinctNames) :
    let e := execute s w rm.name.toList args
    let before := w.files
    let after := e.world.files
    (∀ flow, e.verdict = .done flow → ∃ recursive arg place,
      rmOperand? args = some (recursive, arg) ∧
      before.locateEntry (w.session.resolve arg) = .ok place ∧ before.item? place ≠ none ∧
      ((before.hollow place).locateEntry (w.session.resolve arg) = .ok place →
        before.Removed after place) ∧
      ((before.hollow place).locateEntry (w.session.resolve arg) ≠ .ok place →
        before.Emptied after place) ∧
      (recursive = false →
        before.Removed after place ∧ ∀ q, place.Below q → before.item? q = none)) ∧
    (∀ failure, e.verdict = .failed failure → ∀ q, after.item? q ≠ before.item? q →
      after.item? q = none ∧ ∃ arg place, rmOperand? args = some (true, arg) ∧
        before.locateEntry (w.session.resolve arg) = .ok place ∧ place.Below q) := by
  have hrun : (execute s w rm.name.toList args).world = (runRm w args).world ∧
      (execute s w rm.name.toList args).verdict = (runRm w args).verdict := ⟨rfl, rfl⟩
  dsimp only
  rw [hrun.1, hrun.2, runRm_eq]
  cases hargs : rmOperand? args with
  | none => simp [World.refuse]
  | some operand =>
    obtain ⟨recursive, arg⟩ := operand
    dsimp only
    have hremoves := removal_removes w recursive (w.session.resolve arg) hnames
    generalize removal w recursive (w.session.resolve arg) = e at hremoves ⊢
    cases hremoves with
    | refused failure => simp [World.refuse]
    | done place files hplace hitem hgone hleft honly =>
      exact ⟨fun _ _ => ⟨recursive, arg, place, rfl, hplace, hitem, hgone, hleft, honly⟩,
        fun _ hfailed => by simp [World.finish] at hfailed⟩
    | stopped place files failure hplace hrecursive hpruned =>
      refine ⟨fun _ hdone => by simp [World.refuse] at hdone, fun _ _ q hq => ?_⟩
      by_cases hbelow : place.Below q
      · obtain hgone | hkept := hpruned.below q hbelow
        · exact ⟨hgone, arg, place, by rw [hrecursive], hplace, hbelow⟩
        · exact absurd hkept hq
      · exact absurd (hpruned.kept q hbelow) hq

/-- A shell in a directory with nothing but a directory `d`, which holds a file `f` and an empty
directory `e`. -/
def aboveTree : World :=
  ⟨⟨.dir ⟨0o755#12, 0⟩ [([0x64], .dir ⟨0o755#12, 0⟩
      [([0x66], .leaf 0), ([0x65], .dir ⟨0o755#12, 0⟩ [])])],
    fun _ => ⟨.file [], 0o644#12, 0⟩, 0, []⟩, ⟨[], .unknown⟩, []⟩

theorem rm_contained_of_tree :
    aboveTree.files.HasDistinctNames ∧
      aboveTree.files.Removed
        (execute ⟨none, .universal⟩ aboveTree rm.name.toList [recursiveFlag, ['d']]).world.files
        [[0x64]] := by
  have hnames : aboveTree.files.HasDistinctNames :=
    ⟨rfl, ⟨rfl, trivial, rfl, trivial, trivial⟩, trivial⟩
  obtain ⟨recursive, arg, place, hargs, hplace, -, hgone, -⟩ :=
    (rm_contained ⟨none, .universal⟩ aboveTree [recursiveFlag, ['d']] hnames).1 .stay
      (by decide +kernel)
  obtain ⟨rfl, rfl⟩ := Prod.mk.inj (Option.some.inj hargs)
  have hthere : aboveTree.files.locateEntry (aboveTree.session.resolve ['d']) = .ok [[0x64]] := rfl
  obtain rfl := Except.ok.inj (hplace.symm.trans hthere)
  exact ⟨hnames, hgone rfl⟩

/-- `rm -r d/e/..` is done, and `d` is still there. -/
theorem rm_leaves_directory_named_from_below :
    let operand := ['d', '/', 'e', '/', '.', '.']
    let e := execute ⟨none, .universal⟩ aboveTree rm.name.toList [recursiveFlag, operand]
    e.verdict = .done .stay ∧
      aboveTree.files.locateEntry (aboveTree.session.resolve operand) = .ok [[0x64]] ∧
      e.world.files.item? [[0x64]] = some (.directory 0o755#12) ∧
      e.world.files.item? [[0x64], [0x66]] = none :=
  ⟨rfl, rfl, rfl, rfl⟩

end FileShell.Command
