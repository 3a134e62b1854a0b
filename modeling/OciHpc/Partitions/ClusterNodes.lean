import Mathlib
import OciHpc.Base.Dictionary
import OciHpc.Base.Words

/-!
# The partition report

* `getAllNodes`, `getClusterAndNodes`, `printClusterAndNodes` : `max_nodes_partition.py`, from the output of `sinfo`;
* `Listing` : what `sinfo` prints, one line for each node of each partition;
* `Listed` : what the table of the partitions holds after some of the lines;
* `reportsRight_iff` : the report is right if and only if each partition it looks up has two lines;
* `singleNode_raises` : a partition with one node.
-/

namespace OciHpc.Partitions

/-! ## The script -/

abbrev Text := List Char

local instance : LawfulBEq Text := List.instLawfulBEq

inductive Column
  | idle | allocated | down | drained | others
  deriving DecidableEq, Repr

def Column.all : List Column := [.idle, .allocated, .down, .drained, .others]

def columnOf (state : Text) : Column :=
  if state = "idle".toList then .idle
  else if state = "allocated".toList then .allocated
  else if state = "down".toList then .down
  else if state = "drained".toList then .drained
  else .others

/-- An `IndexError` or a `KeyError`. -/
inductive ReportError
  | index | key
  deriving DecidableEq, Repr

abbrev NodeSets := List (Column × List Text)

abbrev PartitionDict := List (Text × NodeSets)

/-- `s.replace('"', '')`. -/
def removeQuotes (s : Text) : Text := s.filter (· ≠ '"')

def addNode (partitionDict : PartitionDict) (line : Text) : Except ReportError PartitionDict :=
  match words line with
  | state :: node :: partition :: _ =>
    let partitionName := removeQuotes partition
    -- a partition that is there already gets all keys, a new one only that of this line
    let infoDict : NodeSets := match partitionDict.lookup partitionName with
      | some retrievedDict => Column.all.map fun column => (column, (retrievedDict.lookup column).getD [])
      | none => []
    let column := columnOf (removeQuotes state)
    let nodes := (infoDict.lookup column).getD []
    .ok (setKey partitionName (setKey column (nodes.insert (removeQuotes node)) infoDict) partitionDict)
  | _ => .error .index

/-- `sinfo -hNr -o "%T %N %R"`; the piece after the last newline is dropped. -/
def getAllNodes (stdout : Text) : Except ReportError PartitionDict :=
  (PyStr.splitFrom ['\n'] 0 [] stdout).dropLast.foldlM addNode []

def firstPart (node : Text) : Text := (PyStr.splitFrom ['-'] 0 [] node).headD []

/-- `one_node[0]`, of the node that comes first in the set, or of `"test"`. -/
def partitionNameOf : List Text → Text
  | [] => "t".toList
  | node :: _ => firstPart node

/-- The intersections of a cluster's nodes with the sets of a partition. -/
def clusterSets (nodesInCluster : List Text) (info : NodeSets) : Except ReportError NodeSets :=
  Column.all.mapM fun column => match info.lookup column with
    | some nodes => .ok (column, nodesInCluster.filter (· ∈ nodes))
    | none => .error .key

structure Report where
  printed : List Text
  partitionNodes : List (Text × List (Text × NodeSets))

/-- The loop over the clusters; `nodesInClusters` gives the set of a cluster's nodes in the order of its iteration. -/
def addCluster (nodesInClusters : Text → List Text) (clusterList : List Text) (partitionDict : PartitionDict)
    (report : Report) (cluster : Text) : Except ReportError Report :=
  if cluster ∈ clusterList then
    let nodesInCluster := nodesInClusters cluster
    let partitionName := partitionNameOf nodesInCluster
    match partitionDict.lookup partitionName with
    | none => .error .key
    | some info => do
      let clusterDict ← clusterSets nodesInCluster info
      let nodesDict := (report.partitionNodes.lookup partitionName).getD []
      return { report with
        partitionNodes := setKey partitionName (setKey cluster clusterDict nodesDict) report.partitionNodes }
  else .ok { report with printed := report.printed ++ ["Not a valid cluster name: ".toList ++ cluster] }

def iterateClusterList (clusterList includeClusterList : List Text) : List Text :=
  if includeClusterList.length ≠ 0 then includeClusterList else clusterList

def getClusterAndNodes (nodesInClusters : Text → List Text) (clusterList includeClusterList : List Text)
    (partitionDict : PartitionDict) : Except ReportError Report :=
  (iterateClusterList clusterList includeClusterList).foldlM (addCluster nodesInClusters clusterList partitionDict) ⟨[], []⟩

structure Row where
  partition : Text
  cluster : Text
  total : Column → Nat

def Row.sum (row : Row) : Nat := (Column.all.map row.total).sum

def rowOf (partition cluster : Text) (nodes : NodeSets) : Row :=
  ⟨partition, cluster, fun column => ((nodes.lookup column).getD []).length⟩

def sortedByKey {α : Type} (entries : List (Text × α)) : List (Text × α) := entries.insertionSort fun a b => a.1 ≤ b.1

def printClusterAndNodes (nodesDict : List (Text × List (Text × NodeSets))) : List Row :=
  (sortedByKey nodesDict).flatMap fun (k, v) => (sortedByKey v).map fun (cluster, nodes) => rowOf k cluster nodes

/-! ## What `sinfo` prints -/

structure Entry where
  state : Text
  node : Text
  partition : Text
  deriving DecidableEq

structure IsName (name : Text) : Prop extends IsWord name where
  unquoted : '"' ∉ name

structure Entry.WellFormed (e : Entry) : Prop where
  state : IsName e.state
  node : IsName e.node
  partition : IsName e.partition

/-- `"%T %N %R"` with its quotes. -/
def Entry.line (e : Entry) : Text := '"' :: e.state ++ ' ' :: (e.node ++ ' ' :: (e.partition ++ ['"']))

/-- A node-oriented listing: each node once in each of its partitions. -/
structure Listing where
  entries : List Entry
  wellFormed : ∀ e ∈ entries, e.WellFormed
  once : (entries.map fun e => (e.node, e.partition)).Nodup

def Listing.text (listing : Listing) : Text := listing.entries.flatMap fun e => e.line ++ ['\n']

def lineCount (entries : List Entry) (partition : Text) : Nat := entries.countP fun e => e.partition = partition

/-- The nodes appear under one partition, named by the first part of their names. -/
def Appears (listing : Listing) (nodes : List Text) : Prop :=
  nodes.Nodup ∧ ∃ partition, ∀ node ∈ nodes, firstPart node = partition ∧
    ∃ e ∈ listing.entries, e.node = node ∧ e.partition = partition

/-- Each node is in the one set its listed state selects. -/
def RightSets (listing : Listing) (nodes : List Text) (sets : NodeSets) : Prop :=
  ∀ node ∈ nodes, ∃ e ∈ listing.entries, e.node = node ∧ e.partition = partitionNameOf nodes ∧
    ∀ column, node ∈ (sets.lookup column).getD [] ↔ column = columnOf e.state

section
variable (listing : Listing) (nodesInClusters : Text → List Text) (clusterList includeClusterList : List Text)

def reported : List Text := (iterateClusterList clusterList includeClusterList).filter (· ∈ clusterList)

/-- Nothing is raised, each cluster has its nodes in the right sets, and the totals are the sizes of the clusters. -/
def ReportsRight : Prop :=
  ∃ dict report, getAllNodes listing.text = .ok dict ∧
    getClusterAndNodes nodesInClusters clusterList includeClusterList dict = .ok report ∧
    (∀ cluster ∈ reported clusterList includeClusterList, ∃ sets,
      (report.partitionNodes.lookup (partitionNameOf (nodesInClusters cluster))).bind (·.lookup cluster) = some sets ∧
        RightSets listing (nodesInClusters cluster) sets) ∧
    ∀ row ∈ printClusterAndNodes report.partitionNodes, row.sum = (nodesInClusters row.cluster).length

end

/-! ## Reading the lines -/

theorem removeQuotes_eq {name : Text} (h : '"' ∉ name) : removeQuotes name = name := by
  refine List.filter_eq_self.mpr fun c hc => ?_
  simpa using ne_of_mem_of_not_mem hc h

theorem IsName.quoted {name : Text} (h : IsName name) : IsWord ('"' :: name) := by
  refine ⟨List.cons_ne_nil _ _, fun c hc => ?_⟩
  rcases List.mem_cons.mp hc with rfl | hc
  · decide
  · exact h.noSpace c hc

theorem IsName.quotedEnd {name : Text} (h : IsName name) : IsWord (name ++ ['"']) := by
  refine ⟨by simp, fun c hc => ?_⟩
  rcases List.mem_append.mp hc with hc | hc
  · exact h.noSpace c hc
  · rw [List.mem_singleton.mp hc]
    decide

theorem removeQuotes_quoted {name : Text} (h : '"' ∉ name) : removeQuotes ('"' :: name) = name := by
  rw [removeQuotes, List.filter_cons_of_neg (by simp)]
  exact removeQuotes_eq h

theorem removeQuotes_quotedEnd {name : Text} (h : '"' ∉ name) : removeQuotes (name ++ ['"']) = name := by
  rw [removeQuotes, List.filter_append, List.filter_cons_of_neg (by simp), List.filter_nil, List.append_nil]
  exact removeQuotes_eq h

theorem words_line {e : Entry} (h : e.WellFormed) :
    words e.line = ['"' :: e.state, e.node, e.partition ++ ['"']] := by
  rw [Entry.line, words_append h.state.quoted, words_append h.node.toIsWord, words_of_isWord h.partition.quotedEnd]

theorem newline_not_mem_line {e : Entry} (h : e.WellFormed) : '\n' ∉ e.line := by
  have hword : ∀ name, IsWord name → '\n' ∉ name := by
    intro name hname hmem
    exact absurd (hname.noSpace '\n' hmem) (by decide)
  have hstate := hword _ h.state.quoted
  have hnode := hword _ h.node.toIsWord
  have hpartition := hword _ h.partition.quotedEnd
  unfold Entry.line
  simp only [List.mem_append, List.mem_cons, not_or] at *
  exact ⟨hstate, by decide, hnode, by decide, hpartition⟩

theorem split_text {entries : List Entry} (h : ∀ e ∈ entries, e.WellFormed) :
    PyStr.splitFrom ['\n'] 0 [] (entries.flatMap fun e => e.line ++ ['\n']) = entries.map Entry.line ++ [[]] := by
  induction entries with
  | nil => rfl
  | cons e rest ih =>
    rw [List.flatMap_cons, List.append_assoc, List.singleton_append,
      PyStr.splitFrom_append (newline_not_mem_line (h e List.mem_cons_self)),
      ih fun other hother => h other (List.mem_cons_of_mem _ hother)]
    rfl

theorem getAllNodes_text (listing : Listing) :
    getAllNodes listing.text = (listing.entries.map Entry.line).foldlM addNode [] := by
  rw [getAllNodes, Listing.text, split_text listing.wellFormed, List.dropLast_concat]

/-! ## The table of the partitions -/

/-- After some of the lines: all keys are there from the second line of a partition on. -/
structure Listed (entries : List Entry) (dict : PartitionDict) : Prop where
  present : ∀ p, (dict.lookup p).isSome ↔ 1 ≤ lineCount entries p
  complete : ∀ p info, dict.lookup p = some info →
    ((∀ column, (info.lookup column).isSome) ↔ 2 ≤ lineCount entries p)
  members : ∀ p info, dict.lookup p = some info → ∀ column node, node ∈ (info.lookup column).getD [] ↔
    ∃ e ∈ entries, e.partition = p ∧ e.node = node ∧ columnOf e.state = column

theorem lookup_all (f : Column → List Text) (column : Column) :
    (Column.all.map fun column => (column, f column)).lookup column = some (f column) := by
  cases column <;> rfl

theorem lineCount_append (entries : List Entry) (e : Entry) (p : Text) :
    lineCount (entries ++ [e]) p = lineCount entries p + if e.partition = p then 1 else 0 := by
  rw [lineCount, List.countP_append, List.countP_singleton]
  simp only [decide_eq_true_eq]
  rfl

theorem exists_mem_append_iff {P : Entry → Prop} {entries : List Entry} {e : Entry} :
    (∃ other ∈ entries ++ [e], P other) ↔ (∃ other ∈ entries, P other) ∨ P e := by
  simp [or_and_right, exists_or]

theorem mem_setKey_insert {infoDict : NodeSets} {column column' : Column} {node node' : Text} :
    node' ∈ ((setKey column (((infoDict.lookup column).getD []).insert node) infoDict).lookup column').getD [] ↔
      node' ∈ (infoDict.lookup column').getD [] ∨ node = node' ∧ column = column' := by
  by_cases hcolumn : column' = column
  · subst hcolumn
    rw [lookup_setKey_self, Option.getD_some, List.mem_insert_iff]
    simp only [and_true, or_comm, eq_comm]
  · rw [lookup_setKey_of_ne hcolumn]
    simp only [Ne.symm hcolumn, and_false, or_false]

theorem Listed.addNode {entries : List Entry} {dict : PartitionDict} (h : Listed entries dict) {e : Entry}
    (he : e.WellFormed) : ∃ dict', addNode dict e.line = .ok dict' ∧ Listed (entries ++ [e]) dict' := by
  unfold OciHpc.Partitions.addNode
  rw [words_line he]
  dsimp only
  rw [removeQuotes_quoted he.state.unquoted, removeQuotes_eq he.node.unquoted, removeQuotes_quotedEnd he.partition.unquoted]
  generalize hinfo : (match dict.lookup e.partition with
    | some retrievedDict => Column.all.map fun column => (column, (retrievedDict.lookup column).getD [])
    | none => ([] : NodeSets)) = infoDict
  refine ⟨_, rfl, ?_⟩
  have hmembers : ∀ column node, node ∈ (infoDict.lookup column).getD [] ↔
      ∃ other ∈ entries, other.partition = e.partition ∧ other.node = node ∧ columnOf other.state = column := by
    intro column node
    cases hlookup : dict.lookup e.partition with
    | some info =>
      rw [hlookup] at hinfo
      rw [← hinfo, lookup_all, Option.getD_some]
      exact h.members _ _ hlookup column node
    | none =>
      rw [hlookup] at hinfo
      have hcount : ¬ 1 ≤ lineCount entries e.partition := by
        rw [← h.present, hlookup]
        exact Bool.false_ne_true
      rw [← hinfo]
      simp only [List.lookup_nil, Option.getD_none, List.not_mem_nil, false_iff]
      rintro ⟨other, hother, hpartition, -⟩
      exact hcount (List.countP_pos_iff.mpr ⟨other, hother, decide_eq_true hpartition⟩)
  refine ⟨fun p => ?_, fun p info hlookup => ?_, fun p info hlookup column node => ?_⟩
  · rw [lineCount_append]
    by_cases hp : p = e.partition
    · subst hp
      rw [lookup_setKey_self, if_pos rfl]
      simp
    · rw [lookup_setKey_of_ne hp, if_neg (Ne.symm hp)]
      exact h.present p
  · rw [lineCount_append]
    by_cases hp : p = e.partition
    · subst hp
      rw [lookup_setKey_self, Option.some.injEq] at hlookup
      rw [if_pos rfl, ← hlookup]
      cases hold : dict.lookup e.partition with
      | some retrieved =>
        have hcount := (h.present e.partition).mp (by rw [hold]; rfl)
        rw [hold] at hinfo
        refine iff_of_true (fun column => ?_) (by omega)
        by_cases hcolumn : column = columnOf e.state
        · rw [hcolumn, lookup_setKey_self]
          rfl
        · rw [lookup_setKey_of_ne hcolumn, ← hinfo, lookup_all]
          rfl
      | none =>
        have hcount : ¬ 1 ≤ lineCount entries e.partition := by
          rw [← h.present, hold]
          exact Bool.false_ne_true
        rw [hold] at hinfo
        refine iff_of_false (fun hall => ?_) (by omega)
        have hother : ∃ column, column ≠ columnOf e.state := by
          cases columnOf e.state with
          | idle => exact ⟨.others, by decide⟩
          | _ => exact ⟨.idle, by decide⟩
        obtain ⟨column, hcolumn⟩ := hother
        have hsome := hall column
        rw [lookup_setKey_of_ne hcolumn, ← hinfo] at hsome
        cases hsome
    · rw [lookup_setKey_of_ne hp] at hlookup
      rw [if_neg (Ne.symm hp)]
      exact h.complete p info hlookup
  · rw [exists_mem_append_iff]
    by_cases hp : p = e.partition
    · subst hp
      rw [lookup_setKey_self, Option.some.injEq] at hlookup
      rw [← hlookup, mem_setKey_insert, hmembers]
      simp only [true_and]
    · rw [lookup_setKey_of_ne hp] at hlookup
      rw [h.members p info hlookup]
      simp only [Ne.symm hp, false_and, or_false]

theorem listed_foldlM {entries : List Entry} (h : ∀ e ∈ entries, e.WellFormed) :
    ∃ dict, (entries.map Entry.line).foldlM addNode [] = .ok dict ∧ Listed entries dict := by
  have hfold : ∀ (rest done : List Entry) (dict : PartitionDict), (∀ e ∈ rest, e.WellFormed) → Listed done dict →
      ∃ dict', (rest.map Entry.line).foldlM addNode dict = .ok dict' ∧ Listed (done ++ rest) dict' := by
    intro rest
    induction rest with
    | nil =>
      intro done dict _ hlisted
      rw [List.append_nil]
      exact ⟨dict, rfl, hlisted⟩
    | cons e rest ih =>
      intro done dict hrest hlisted
      obtain ⟨dict₁, hadd, hlisted₁⟩ := hlisted.addNode (hrest e List.mem_cons_self)
      obtain ⟨dict₂, hfold, hlisted₂⟩ := ih (done ++ [e]) dict₁
        (fun other hother => hrest other (List.mem_cons_of_mem _ hother)) hlisted₁
      rw [List.append_assoc, List.singleton_append] at hlisted₂
      refine ⟨dict₂, ?_, hlisted₂⟩
      rw [List.map_cons, List.foldlM_cons, hadd]
      exact hfold
  exact hfold entries [] [] h ⟨fun _ => by simp [lineCount], nofun, nofun⟩

/-! ## The clusters -/

/-- The sets of a cluster, where the partition has all keys. -/
def intersections (nodes : List Text) (info : NodeSets) : NodeSets :=
  Column.all.map fun column => (column, nodes.filter (· ∈ (info.lookup column).getD []))

theorem clusterSets_of_complete {nodes : List Text} {info : NodeSets} (h : ∀ column, (info.lookup column).isSome) :
    clusterSets nodes info = .ok (intersections nodes info) := by
  have hcolumn : ∀ column, (match info.lookup column with
      | some set => Except.ok (column, nodes.filter (· ∈ set))
      | none => Except.error ReportError.key) = .ok (column, nodes.filter (· ∈ (info.lookup column).getD [])) := by
    intro column
    obtain ⟨set, hset⟩ := Option.isSome_iff_exists.mp (h column)
    rw [hset]
    rfl
  unfold clusterSets
  simp only [hcolumn]
  rfl

theorem complete_of_clusterSets {nodes : List Text} {info sets : NodeSets} (h : clusterSets nodes info = .ok sets)
    (column : Column) : (info.lookup column).isSome := by
  by_contra hnone
  rw [Option.not_isSome_iff_eq_none] at hnone
  unfold clusterSets Column.all at h
  simp only [List.mapM_cons, List.mapM_nil] at h
  cases hidle : info.lookup Column.idle <;> rw [hidle] at h
  · cases h
  cases hallocated : info.lookup Column.allocated <;> rw [hallocated] at h
  · cases h
  cases hdown : info.lookup Column.down <;> rw [hdown] at h
  · cases h
  cases hdrained : info.lookup Column.drained <;> rw [hdrained] at h
  · cases h
  cases hothers : info.lookup Column.others <;> rw [hothers] at h
  · cases h
  cases column with
  | idle => cases hidle.symm.trans hnone
  | allocated => cases hallocated.symm.trans hnone
  | down => cases hdown.symm.trans hnone
  | drained => cases hdrained.symm.trans hnone
  | others => cases hothers.symm.trans hnone

section
variable {nodesInClusters : Text → List Text} {clusterList : List Text} {dict : PartitionDict}

def SetsOf (nodesInClusters : Text → List Text) (dict : PartitionDict) (cluster : Text) (sets : NodeSets) : Prop :=
  ∃ info, dict.lookup (partitionNameOf (nodesInClusters cluster)) = some info ∧
    (∀ column, (info.lookup column).isSome) ∧ sets = intersections (nodesInClusters cluster) info

structure Reported (nodesInClusters : Text → List Text) (dict : PartitionDict) (done : List Text)
    (partitionNodes : List (Text × List (Text × NodeSets))) : Prop where
  entries : ∀ partition clusters cluster sets, (partition, clusters) ∈ partitionNodes → (cluster, sets) ∈ clusters →
    cluster ∈ done ∧ SetsOf nodesInClusters dict cluster sets
  reached : ∀ cluster ∈ done, ∃ sets,
    (partitionNodes.lookup (partitionNameOf (nodesInClusters cluster))).bind (·.lookup cluster) = some sets

theorem Reported.add {done : List Text} {partitionNodes : List (Text × List (Text × NodeSets))}
    (h : Reported nodesInClusters dict done partitionNodes) {cluster : Text} {sets : NodeSets}
    (hsets : SetsOf nodesInClusters dict cluster sets) :
    Reported nodesInClusters dict (done ++ [cluster]) (setKey (partitionNameOf (nodesInClusters cluster))
      (setKey cluster sets ((partitionNodes.lookup (partitionNameOf (nodesInClusters cluster))).getD []))
      partitionNodes) := by
  refine ⟨fun partition clusters other sets' hpartition hother => ?_, fun other hother => ?_⟩
  · rcases mem_setKey hpartition with heq | hpartition
    · obtain ⟨rfl, rfl⟩ := Prod.mk.inj heq
      rcases mem_setKey hother with heq | hother
      · obtain ⟨rfl, rfl⟩ := Prod.mk.inj heq
        exact ⟨List.mem_append_right _ List.mem_cons_self, hsets⟩
      · cases hold : partitionNodes.lookup (partitionNameOf (nodesInClusters cluster)) with
        | none =>
          rw [hold] at hother
          cases hother
        | some clusters =>
          rw [hold] at hother
          exact (h.entries _ clusters other sets' (mem_of_lookup hold) hother).imp_left (List.mem_append_left _)
    · exact (h.entries partition clusters other sets' hpartition hother).imp_left (List.mem_append_left _)
  · by_cases hsame : partitionNameOf (nodesInClusters other) = partitionNameOf (nodesInClusters cluster)
    · rw [hsame, lookup_setKey_self, Option.bind_some]
      by_cases hcluster : other = cluster
      · rw [hcluster]
        exact ⟨sets, lookup_setKey_self ..⟩
      · rw [lookup_setKey_of_ne hcluster]
        have hdone : other ∈ done := (List.mem_append.mp hother).resolve_right (by simpa using hcluster)
        obtain ⟨sets', hsets'⟩ := h.reached other hdone
        rw [hsame] at hsets'
        cases hold : partitionNodes.lookup (partitionNameOf (nodesInClusters cluster)) with
        | none =>
          rw [hold] at hsets'
          cases hsets'
        | some clusters =>
          rw [hold] at hsets'
          exact ⟨sets', hsets'⟩
    · rw [lookup_setKey_of_ne hsame]
      have hdone : other ∈ done := by
        refine (List.mem_append.mp hother).resolve_right fun hmem => hsame ?_
        rw [List.mem_singleton.mp hmem]
      exact h.reached other hdone

def Complete (nodesInClusters : Text → List Text) (dict : PartitionDict) (cluster : Text) : Prop :=
  ∃ info, dict.lookup (partitionNameOf (nodesInClusters cluster)) = some info ∧ ∀ column, (info.lookup column).isSome

theorem foldlM_addCluster (clusters done : List Text) (report : Report)
    (h : Reported nodesInClusters dict done report.partitionNodes) :
    (∀ report', clusters.foldlM (addCluster nodesInClusters clusterList dict) report = .ok report' →
      (∀ cluster ∈ clusters.filter (· ∈ clusterList), Complete nodesInClusters dict cluster) ∧
        Reported nodesInClusters dict (done ++ clusters.filter (· ∈ clusterList)) report'.partitionNodes) ∧
    ((∀ cluster ∈ clusters.filter (· ∈ clusterList), Complete nodesInClusters dict cluster) →
      ∃ report', clusters.foldlM (addCluster nodesInClusters clusterList dict) report = .ok report') := by
  induction clusters generalizing done report with
  | nil =>
    refine ⟨fun report' hreport => ?_, fun _ => ⟨report, rfl⟩⟩
    cases hreport
    rw [List.filter_nil, List.append_nil]
    exact ⟨nofun, h⟩
  | cons cluster rest ih =>
    rw [List.foldlM_cons]
    by_cases hvalid : cluster ∈ clusterList
    · rw [List.filter_cons_of_pos (by simpa using hvalid), addCluster, if_pos hvalid]
      dsimp only
      cases hlookup : dict.lookup (partitionNameOf (nodesInClusters cluster)) with
      | none =>
        refine ⟨nofun, fun hall => ?_⟩
        obtain ⟨info, hinfo, -⟩ := hall cluster List.mem_cons_self
        cases hlookup.symm.trans hinfo
      | some info =>
        dsimp only
        by_cases hcomplete : ∀ column, (info.lookup column).isSome
        · rw [clusterSets_of_complete hcomplete]
          have hadd := h.add ⟨info, hlookup, hcomplete, rfl⟩
          obtain ⟨hreturned, hreturns⟩ := ih (done ++ [cluster]) { report with partitionNodes := _ } hadd
          refine ⟨fun report' hreport => ?_, fun hall => hreturns fun other hother => hall other (List.mem_cons_of_mem _ hother)⟩
          obtain ⟨hrest, hreported⟩ := hreturned report' hreport
          rw [List.append_assoc, List.singleton_append] at hreported
          refine ⟨fun other hother => ?_, hreported⟩
          rcases List.mem_cons.mp hother with rfl | hother
          · exact ⟨info, hlookup, hcomplete⟩
          · exact hrest other hother
        · refine ⟨fun report' hreport => ?_, fun hall => ?_⟩
          · cases hsets : clusterSets (nodesInClusters cluster) info with
            | ok sets => exact absurd (complete_of_clusterSets hsets) hcomplete
            | error e =>
              rw [hsets] at hreport
              cases hreport
          · obtain ⟨info', hinfo', hcomplete'⟩ := hall cluster List.mem_cons_self
            cases hlookup.symm.trans hinfo'
            exact absurd hcomplete' hcomplete
    · rw [List.filter_cons_of_neg (by simpa using hvalid), addCluster, if_neg hvalid]
      exact ih done _ h

end

/-! ## The report -/

theorem lookup_intersections (nodes : List Text) (info : NodeSets) (column : Column) :
    ((intersections nodes info).lookup column).getD [] = nodes.filter (· ∈ (info.lookup column).getD []) := by
  rw [intersections, lookup_all, Option.getD_some]

/-- Where each node is in one of the sets, their sizes add up. -/
theorem sum_intersections {nodes : List Text} {info : NodeSets} (partition cluster : Text)
    (h : ∀ node ∈ nodes, ∃ selected, ∀ column, node ∈ (info.lookup column).getD [] ↔ column = selected) :
    (rowOf partition cluster (intersections nodes info)).sum = nodes.length := by
  have hsum : ∀ part : List Text, (∀ node ∈ part, node ∈ nodes) →
      (Column.all.map fun column => (part.filter (· ∈ (info.lookup column).getD [])).length).sum = part.length := by
    intro part
    induction part with
    | nil => exact fun _ => rfl
    | cons node rest ih =>
      intro hpart
      obtain ⟨selected, hselected⟩ := h node (hpart node List.mem_cons_self)
      have hrest := ih fun other hother => hpart other (List.mem_cons_of_mem _ hother)
      simp only [Column.all, List.map_cons, List.map_nil, List.sum_cons, List.sum_nil, List.filter_cons, hselected,
        List.length_cons, decide_eq_true_eq] at hrest ⊢
      cases selected <;> simp <;> omega
  rw [Row.sum]
  simp only [rowOf, lookup_intersections]
  exact hsum nodes fun _ hmem => hmem

section
variable {listing : Listing} {dict : PartitionDict}

theorem Listed.selected {nodes : List Text} (hlisted : Listed listing.entries dict) {info : NodeSets}
    (hinfo : dict.lookup (partitionNameOf nodes) = some info) {e : Entry} (he : e ∈ listing.entries)
    (hpartition : e.partition = partitionNameOf nodes) (column : Column) :
    e.node ∈ (info.lookup column).getD [] ↔ column = columnOf e.state := by
  rw [hlisted.members _ _ hinfo]
  constructor
  · rintro ⟨other, hother, hpartition', hnode, rfl⟩
    have hsame : (other.node, other.partition) = (e.node, e.partition) := by rw [hnode, hpartition', hpartition]
    rw [List.inj_on_of_nodup_map listing.once hother he hsame]
  · rintro rfl
    exact ⟨e, he, hpartition, rfl, rfl⟩

theorem Appears.exists_entry {nodes : List Text} (h : Appears listing nodes) {node : Text} (hnode : node ∈ nodes) :
    ∃ e ∈ listing.entries, e.node = node ∧ e.partition = partitionNameOf nodes := by
  obtain ⟨-, partition, hall⟩ := h
  obtain ⟨-, e, he, hnode', hpartition⟩ := hall node hnode
  refine ⟨e, he, hnode', hpartition.trans ?_⟩
  cases nodes with
  | nil => cases hnode
  | cons first rest => exact (hall first List.mem_cons_self).1.symm

end

theorem mem_sortedByKey {α : Type} {entries : List (Text × α)} {entry : Text × α} :
    entry ∈ sortedByKey entries ↔ entry ∈ entries := (List.perm_insertionSort _ _).mem_iff

/-- **The report is right exactly if each partition it looks up has two lines.** -/
theorem reportsRight_iff (listing : Listing) (nodesInClusters : Text → List Text)
    (clusterList includeClusterList : List Text)
    (happears : ∀ cluster ∈ reported clusterList includeClusterList, Appears listing (nodesInClusters cluster)) :
    ReportsRight listing nodesInClusters clusterList includeClusterList ↔
      ∀ cluster ∈ reported clusterList includeClusterList,
        2 ≤ lineCount listing.entries (partitionNameOf (nodesInClusters cluster)) := by
  obtain ⟨dict, hdict, hlisted⟩ := listed_foldlM listing.wellFormed
  rw [← getAllNodes_text] at hdict
  have hcomplete : ∀ cluster, Complete nodesInClusters dict cluster ↔
      2 ≤ lineCount listing.entries (partitionNameOf (nodesInClusters cluster)) := by
    intro cluster
    constructor
    · rintro ⟨info, hinfo, hall⟩
      exact (hlisted.complete _ _ hinfo).mp hall
    · intro htwo
      obtain ⟨info, hinfo⟩ := Option.isSome_iff_exists.mp ((hlisted.present _).mpr (Nat.le_of_succ_le htwo))
      exact ⟨info, hinfo, (hlisted.complete _ _ hinfo).mpr htwo⟩
  have hfold := @foldlM_addCluster nodesInClusters clusterList dict (iterateClusterList clusterList includeClusterList)
    [] ⟨[], []⟩ ⟨nofun, nofun⟩
  constructor
  · rintro ⟨dict', report, hdict', hreport, -⟩ cluster hcluster
    cases hdict.symm.trans hdict'
    exact (hcomplete cluster).mp ((hfold.1 report hreport).1 cluster hcluster)
  · intro htwo
    obtain ⟨report, hreport⟩ := hfold.2 fun cluster hcluster => (hcomplete cluster).mpr (htwo cluster hcluster)
    obtain ⟨-, hentries, hreached⟩ := hfold.1 report hreport
    refine ⟨dict, report, hdict, hreport, fun cluster hcluster => ?_, fun row hrow => ?_⟩
    · obtain ⟨sets, hsets⟩ := hreached cluster hcluster
      refine ⟨sets, hsets, fun node hnode => ?_⟩
      obtain ⟨e, he, rfl, hpartition⟩ := (happears cluster hcluster).exists_entry hnode
      refine ⟨e, he, rfl, hpartition, fun column => ?_⟩
      obtain ⟨clusters, hclusters, hlookup⟩ := Option.bind_eq_some_iff.mp hsets
      obtain ⟨-, info, hinfo, -, rfl⟩ := hentries _ clusters cluster sets (mem_of_lookup hclusters) (mem_of_lookup hlookup)
      rw [lookup_intersections, List.mem_filter, decide_eq_true_eq, hlisted.selected hinfo he hpartition]
      exact and_iff_right hnode
    · unfold printClusterAndNodes at hrow
      obtain ⟨⟨partition, clusters⟩, hpartition, hrow⟩ := List.mem_flatMap.mp hrow
      obtain ⟨⟨cluster, sets⟩, hcluster, rfl⟩ := List.mem_map.mp hrow
      obtain ⟨hreported, info, hinfo, -, rfl⟩ := hentries partition clusters cluster sets
        (mem_sortedByKey.mp hpartition) (mem_sortedByKey.mp hcluster)
      refine sum_intersections partition cluster fun node hnode => ?_
      obtain ⟨e, he, rfl, hpartition⟩ := (happears cluster hreported).exists_entry hnode
      exact ⟨columnOf e.state, hlisted.selected hinfo he hpartition⟩

/-! ## Partitions of one and of two nodes -/

def Entry.plain (e : Entry) : Bool :=
  [e.state, e.node, e.partition].all fun word => !word.isEmpty && word.all fun c => !PyStr.isSpace c && c != '"'

theorem Entry.wellFormed_of_plain {e : Entry} (h : e.plain = true) : e.WellFormed := by
  have hname : ∀ word ∈ [e.state, e.node, e.partition], IsName word := by
    intro word hword
    have hplain := List.all_eq_true.mp h word hword
    rw [Bool.and_eq_true, List.all_eq_true] at hplain
    refine ⟨⟨fun hnil => ?_, fun c hc => ?_⟩, fun hquote => ?_⟩
    · simp [hnil] at hplain
    · simpa using (Bool.and_eq_true_iff.mp (hplain.2 c hc)).1
    · simpa using hplain.2 '"' hquote
  exact ⟨hname _ (by simp), hname _ (by simp), hname _ (by simp)⟩

/-- A listing of entries that can be checked one by one. -/
def Listing.ofPlain (entries : List Entry) (hplain : entries.all Entry.plain = true)
    (honce : (entries.map fun e => (e.node, e.partition)).Nodup) : Listing :=
  ⟨entries, fun e he => Entry.wellFormed_of_plain (List.all_eq_true.mp hplain e he), honce⟩

def firstNode : Entry := ⟨"idle".toList, "compute-hpc-node-1".toList, "compute".toList⟩

def secondNode : Entry := ⟨"allocated".toList, "compute-hpc-node-2".toList, "compute".toList⟩

def oneCluster (nodes : List Entry) (cluster : Text) : List Text :=
  if cluster = "cluster1".toList then nodes.map (·.node) else []

theorem reportsRight_iff_twoNodes :
    ReportsRight (.ofPlain [firstNode, secondNode] (by decide) (by decide)) (oneCluster [firstNode, secondNode])
        ["cluster1".toList] [] ↔
      ∀ cluster ∈ reported ["cluster1".toList] [],
        2 ≤ lineCount [firstNode, secondNode] (partitionNameOf (oneCluster [firstNode, secondNode] cluster)) := by
  refine reportsRight_iff _ _ _ _ fun cluster hcluster => ?_
  obtain rfl : cluster = "cluster1".toList := by simpa using (List.mem_filter.mp hcluster).2
  refine ⟨by decide, "compute".toList, fun node hnode => ?_⟩
  rcases List.mem_cons.mp hnode with rfl | hnode
  · exact ⟨by decide, firstNode, List.mem_cons_self, rfl, rfl⟩
  · rw [List.mem_singleton.mp hnode]
    exact ⟨by decide, secondNode, List.mem_cons_of_mem _ List.mem_cons_self, rfl, rfl⟩

/-- The one line of the partition has set the key `idle` alone. -/
theorem singleNode_raises : ¬ ∀ (listing : Listing) (nodesInClusters : Text → List Text)
    (clusterList includeClusterList : List Text),
    (∀ cluster ∈ reported clusterList includeClusterList, Appears listing (nodesInClusters cluster)) →
      ReportsRight listing nodesInClusters clusterList includeClusterList := by
  intro h
  let listing : Listing := .ofPlain [firstNode] (by decide) (by decide)
  obtain ⟨dict, report, hdict, hreport, -⟩ := h listing (oneCluster [firstNode]) ["cluster1".toList] [] fun cluster hcluster => by
    obtain rfl : cluster = "cluster1".toList := by simpa using (List.mem_filter.mp hcluster).2
    refine ⟨by decide, "compute".toList, fun node hnode => ?_⟩
    rw [List.mem_singleton.mp hnode]
    exact ⟨by decide, firstNode, List.mem_cons_self, rfl, rfl⟩
  have hidle : getAllNodes listing.text = .ok [("compute".toList, [(.idle, [firstNode.node])])] := by decide +kernel
  cases hidle.symm.trans hdict
  cases hreport

end OciHpc.Partitions
