import FileShell.Listing
import FileShell.FileSystem.Copying
import FileShell.Proofs.Items
import FileShell.Proofs.Lookups

namespace FileShell

namespace FileSystem

variable {fs : FileSystem} {path : Path} {node : Node}

def nodeFound? (fs : FileSystem) : Except Fault Place → Option Node
  | .ok place => fs.node? place
  | .error _ => none

/-- The node that a path leads to, links followed. -/
def reached? (fs : FileSystem) (path : Path) : Option Node := fs.nodeFound? (fs.locate path)

/-- The node that a path names, a link at its end not followed unless a slash stands behind it. -/
def named? (fs : FileSystem) (path : Path) : Option Node := fs.nodeFound? (fs.locateEntry path)

/-- A path names a link, and following it leads nowhere. -/
def BrokenLink (fs : FileSystem) (path : Path) (link : Leaf) : Prop :=
  fs.reached? path = none ∧
    ∃ id target, fs.named? path = some (.leaf id) ∧ fs.leaves id = link ∧ link.body = .link target

/-- Nothing can be found where a path leads, nor by the name itself. -/
def Unexaminable (fs : FileSystem) (path : Path) : Prop :=
  fs.reached? path = none ∧ fs.named? path = none

theorem nodeFound?_eq_some_iff {found : Except Fault Place} :
    fs.nodeFound? found = some node ↔ ∃ place, found = .ok place ∧ fs.node? place = some node := by
  cases found <;> simp [nodeFound?]

theorem toOption_statusAt (found : Except Fault Place) :
    (found >>= fs.statusAt).toOption = (fs.nodeFound? found).map fs.statusOf := by
  cases found with
  | error fault => rfl
  | ok place =>
    show (fs.statusAt place).toOption = (fs.node? place).map fs.statusOf
    unfold statusAt
    cases fs.node? place <;> rfl

theorem sightOf_eq_link_iff {target : Path} :
    fs.sightOf node = .link target ↔ ∃ id, node = .leaf id ∧ (fs.leaves id).body = .link target := by
  cases node with
  | leaf id => cases h : (fs.leaves id).body <;> simp [sightOf, h]
  | dir folder es => simp [sightOf]

theorem link_of_named (hnamed : fs.named? path = some node) (hreached : fs.reached? path = none) :
    ∃ id target, node = .leaf id ∧ (fs.leaves id).body = .link target := by
  obtain ⟨place, hplace, hnode⟩ := nodeFound?_eq_some_iff.1 hnamed
  obtain ⟨haccept, b, hwalk, hsettle⟩ := locateEntry_eq_ok_iff.1 hplace
  by_cases hlink : ∃ target, fs.sightOf node = .link target
  · obtain ⟨target, hlink⟩ := hlink
    obtain ⟨id, hid, hbody⟩ := sightOf_eq_link_iff.1 hlink
    exact ⟨id, target, hid, hbody⟩
  -- With no link there, the walk that follows links at the end goes the same way.
  have hwalk' : fs.walkPath .always path = .ok b := by
    rw [walkPath_eq_ok_iff] at hwalk ⊢
    refine hwalk.following_mono (fun _ _ => rfl) fun n target hlast hsight => ?_
    obtain ⟨-, rfl, -⟩ := (settle_name_eq_ok_iff hlast).1 hsettle
    rw [sight?, hnode] at hsight
    exact absurd ⟨target, Option.some.inj hsight⟩ hlink
  have hlocate : fs.locate path = .ok place := locate_eq_ok_iff.2 ⟨haccept, b, hwalk', hsettle⟩
  have hthere : fs.reached? path = some node := nodeFound?_eq_some_iff.2 ⟨place, hlocate, hnode⟩
  rw [hthere] at hreached
  cases hreached

theorem reached_or_broken_or_unexaminable (fs : FileSystem) (path : Path) :
    (∃ node, fs.reached? path = some node) ∨ (∃ link, fs.BrokenLink path link) ∨
      fs.Unexaminable path := by
  cases hreached : fs.reached? path with
  | some node => exact .inl ⟨node, rfl⟩
  | none =>
    cases hnamed : fs.named? path with
    | none => exact .inr (.inr ⟨hreached, hnamed⟩)
    | some node =>
      obtain ⟨id, target, rfl, hbody⟩ := link_of_named hnamed hreached
      exact .inr (.inl ⟨fs.leaves id, hreached, id, target, hnamed, rfl, hbody⟩)

end FileSystem

namespace Entry

open FileSystem

def ofNode (fs : FileSystem) (name : Text) : Node → Entry
  | .dir folder _ => ⟨name, .directory, 0, some folder.modified⟩
  | .leaf id => ⟨name, .file, (fs.contentOf id).length, some (fs.leaves id).modified⟩

theorem ofStatus_statusOf (fs : FileSystem) (name : Text) (node : Node) :
    ofStatus name (fs.statusOf node) = ofNode fs name node := by
  cases node with
  | dir folder es => rfl
  | leaf id =>
    simp only [ofStatus, statusOf, Leaf.kind, ofNode, contentOf]
    cases (fs.leaves id).body <;> rfl

/-- The entry for a path is that of what it leads to, or else of what it names. -/
theorem ofPath_eq (fs : FileSystem) (path : Path) :
    let name := Utf8.decode (path.fileName.getD [])
    ofPath fs path =
      ((fs.reached? path).or (fs.named? path)).elim ⟨name, .file, 0, none⟩ (ofNode fs name) := by
  have hreached : (fs.status path).toOption = (fs.reached? path).map fs.statusOf :=
    toOption_statusAt _
  have hnamed : (fs.entryStatus path).toOption = (fs.named? path).map fs.statusOf :=
    toOption_statusAt _
  unfold ofPath
  cases hstatus : fs.status path with
  | ok status =>
    rw [hstatus] at hreached
    obtain ⟨node, hnode, rfl⟩ := Option.map_eq_some_iff.1 hreached.symm
    rw [hnode]
    exact ofStatus_statusOf fs _ node
  | error fault =>
    rw [hstatus] at hreached
    rw [Option.map_eq_none_iff.1 hreached.symm, Option.none_or]
    cases hentry : fs.entryStatus path with
    | ok status =>
      rw [hentry] at hnamed
      obtain ⟨node, hnode, rfl⟩ := Option.map_eq_some_iff.1 hnamed.symm
      rw [hnode]
      exact ofStatus_statusOf fs _ node
    | error other =>
      rw [hentry] at hnamed
      rw [Option.map_eq_none_iff.1 hnamed.symm]
      rfl

/-- The entry for a path reports the node that it leads to. A link that leads nowhere is a file of no
length with the link's own time, and only what cannot be looked at at all has none. -/
theorem reports_exact (fs : FileSystem) (path : Path) :
    let name := Utf8.decode (path.fileName.getD [])
    let entry := ofPath fs path
    (∀ folder children, fs.reached? path = some (.dir folder children) →
      entry = ⟨name, .directory, 0, some folder.modified⟩) ∧
    (∀ id, fs.reached? path = some (.leaf id) →
      entry = ⟨name, .file, (fs.contentOf id).length, some (fs.leaves id).modified⟩) ∧
    (∀ link, fs.BrokenLink path link → entry = ⟨name, .file, 0, some link.modified⟩) ∧
    (fs.Unexaminable path → entry = ⟨name, .file, 0, none⟩) ∧
    ((∃ node, fs.reached? path = some node) ∨ (∃ link, fs.BrokenLink path link) ∨
      fs.Unexaminable path) ∧
    (entry.modified = none ↔ fs.Unexaminable path) := by
  intro name entry
  have hentry : entry =
      ((fs.reached? path).or (fs.named? path)).elim ⟨name, .file, 0, none⟩ (ofNode fs name) :=
    ofPath_eq fs path
  have hbroken : ∀ link, fs.BrokenLink path link →
      entry = ⟨name, .file, 0, some link.modified⟩ := by
    rintro link ⟨hreached, id, target, hnamed, rfl, hbody⟩
    rw [hentry, hreached, hnamed]
    simp [ofNode, contentOf, hbody]
  have hnothing : fs.Unexaminable path → entry = ⟨name, .file, 0, none⟩ := by
    rintro ⟨hreached, hnamed⟩
    rw [hentry, hreached, hnamed]
    rfl
  refine ⟨fun folder children hreached => ?_, fun id hreached => ?_, hbroken, hnothing,
    reached_or_broken_or_unexaminable fs path, fun hnone => ?_, fun h => by rw [hnothing h]⟩
  · rw [hentry, hreached]
    rfl
  · rw [hentry, hreached]
    rfl
  · obtain ⟨node, hreached⟩ | ⟨link, hlink⟩ | hnot := reached_or_broken_or_unexaminable fs path
    · rw [hentry, hreached] at hnone
      cases node <;> cases hnone
    · rw [hbroken link hlink] at hnone
      cases hnone
    · exact hnot

/-- A directory with nothing but a link to a name that nothing has. -/
def besideBrokenLink : FileSystem :=
  (FileSystem.empty 0).putLeaf [] [0x6C] ⟨.link (Path.ofString "gone"), 0o777#12, 0⟩

/-- A link that leads nowhere is listed with a time, the link's own. -/
theorem broken_link_has_time :
    (∃ link, besideBrokenLink.BrokenLink (Path.ofString "l") link) ∧
      ofPath besideBrokenLink (Path.ofString "l") = ⟨['l'], .file, 0, some 0⟩ := by
  refine ⟨⟨_, ?_, 0, Path.ofString "gone", ?_, rfl, ?_⟩, ?_⟩
  · rfl
  · rfl
  · rfl
  · decide +kernel

end Entry
end FileShell
