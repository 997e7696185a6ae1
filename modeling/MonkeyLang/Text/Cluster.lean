import MonkeyLang.Text.Cluster.Class

namespace MonkeyLang.Text

open ClusterClass in
/-- Whether a cluster goes on with a character. The cluster is given by the classes of its
    characters, the last one first. -/
def goesOn (cluster : List ClusterClass) (next : ClusterClass) : Bool :=
  match cluster with
  | [] => true
  | last :: before =>
    if last = carriageReturn && next = lineFeed then true
    else if last.isControl || next.isControl then false
    else if last.continuesSyllable next || next.isAttached || last = prepended then true
    else match next with
      | regional => (cluster.takeWhile (· = regional)).length % 2 = 1
      | pictograph =>
        last = joiner && (before.dropWhile isExtender).head? = some pictograph
      | consonant =>
        (cluster.takeWhile isConjunctMark).contains linker &&
          (cluster.dropWhile isConjunctMark).head? = some consonant
      | _ => false

/-- The clusters of a text behind the beginning of one, given by its characters and their
    classes, the last one first. -/
def clustersFrom (chars : List Char) (classes : List ClusterClass) : List Char → List (List Char)
  | [] => if chars.isEmpty then [] else [chars.reverse]
  | c :: rest =>
    let next := ClusterClass.of c
    if goesOn classes next then clustersFrom (c :: chars) (next :: classes) rest
    else chars.reverse :: clustersFrom [c] [next] rest

def clusters (text : List Char) : List (List Char) := clustersFrom [] [] text

theorem flatten_clustersFrom (text chars : List Char) (classes : List ClusterClass) :
    (clustersFrom chars classes text).flatten = chars.reverse ++ text := by
  induction text generalizing chars classes with
  | nil => cases chars <;> simp [clustersFrom]
  | cons c rest ih =>
    by_cases h : goesOn classes (ClusterClass.of c)
    · simp [clustersFrom, h, ih]
    · simp [clustersFrom, h, ih]

theorem flatten_clusters (text : List Char) : (clusters text).flatten = text := by
  simp [clusters, flatten_clustersFrom]

end MonkeyLang.Text
