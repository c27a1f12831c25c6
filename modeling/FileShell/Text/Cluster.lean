import FileShell.Text.Cluster.Kind
import FileShell.Text.Utf8

namespace FileShell.Text

/-- Whether a character may stand between a consonant and the one that a linker joins to it. -/
def isConjunctMark (c : Char) : Bool :=
  (ClusterKind.of c == .extending || ClusterKind.of c == .joiner) && c.toNat != 0x200C

/-- Whether a consonant joins a cluster, given last character first. -/
def endsInConjunct (cluster : Text) : Bool :=
  (cluster.takeWhile isConjunctMark).any isLinker &&
    (cluster.dropWhile isConjunctMark).head?.any (ClusterKind.of · == .consonant)

def endsInPictograph (cluster : Text) : Bool :=
  (cluster.dropWhile (ClusterKind.of · == .extending)).head?.any (ClusterKind.of · == .pictograph)

/-- Whether a regional indicator stands at the end that has no partner yet. -/
def endsInLoneRegional (cluster : Text) : Bool :=
  (cluster.takeWhile (ClusterKind.of · == .regional)).length % 2 == 1

/-- Whether a character belongs to the cluster before it, given last character first. -/
def joins (cluster : Text) (next : Char) : Bool :=
  match cluster with
  | [] => false
  | last :: earlier =>
    match ClusterKind.of last, ClusterKind.of next with
    | .carriageReturn, .newline => true
    | .carriageReturn, _ | .newline, _ | .control, _ => false
    | _, .carriageReturn | _, .newline | _, .control => false
    | .lead, .lead | .lead, .vowel | .lead, .openBlock | .lead, .closedBlock => true
    | .openBlock, .vowel | .openBlock, .tail | .vowel, .vowel | .vowel, .tail => true
    | .closedBlock, .tail | .tail, .tail => true
    | _, .extending | _, .joiner | _, .spacingMark | .prepended, _ => true
    | _, .consonant => endsInConjunct cluster
    | .joiner, .pictograph => endsInPictograph earlier
    | .regional, .regional => endsInLoneRegional cluster
    | _, _ => false

/-- The clusters of a text behind one that is under way, given last character first. -/
def clustersFrom (cluster : Text) : Text → List Text
  | [] => [cluster.reverse]
  | c :: rest =>
    if joins cluster c then clustersFrom (c :: cluster) rest
    else cluster.reverse :: clustersFrom [c] rest

/-- The extended grapheme clusters of a text, which are what a reader takes for one character each.
-/
def clusters : Text → List Text
  | [] => []
  | c :: rest => clustersFrom [c] rest

theorem flatten_clustersFrom (cluster t : Text) :
    (clustersFrom cluster t).flatten = cluster.reverse ++ t := by
  induction t generalizing cluster with
  | nil => simp [clustersFrom]
  | cons c rest ih =>
    unfold clustersFrom
    split <;> simp [ih]

theorem flatten_clusters (t : Text) : (clusters t).flatten = t := by
  cases t with
  | nil => rfl
  | cons c rest => exact flatten_clustersFrom [c] rest

end FileShell.Text
