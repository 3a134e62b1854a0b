import Mathlib
import OciHpc.Base.Dictionary
import OciHpc.Base.Words

/-!
# Physical cores of the System Status page

* `integer`, `divideRoundingUp` : Ruby's `Integer(_, 10)`, and the division that rounds up;
* `counts` : `OciHpcSystemStatusPhysicalCores.counts`, from the output of `sinfo`;
* `nodeCores_spec` : the cores of one node; it never divides by zero;
* `counts_spec` : each node counts once, by the first line of its name;
* `counts_perm` : the order of lines of distinct nodes does not matter.
-/

namespace OciHpc.OpenOnDemand

abbrev Text := List Char

local instance : LawfulBEq Text := List.instLawfulBEq

/-! ## Strings and integers of Ruby -/

/-- `Integer#/` by zero. -/
inductive RubyError
  | zeroDivision
  deriving DecidableEq, Repr

def isSpace (c : Char) : Bool := (9 ≤ c.toNat && c.toNat ≤ 13) || c == ' '

/-- `s.strip`, which also takes off null characters. -/
def strip (s : Text) : Text :=
  let blank := fun c => isSpace c || c.toNat == 0
  ((s.dropWhile blank).reverse.dropWhile blank).reverse

/-- `s.split(sep, limit)` of a text that is not empty. -/
def splitUpTo (sep : Char) : Nat → Text → List Text
  | limit + 2, s => match PyStr.partition sep s with
    | (piece, true, rest) => piece :: splitUpTo sep (limit + 1) rest
    | (piece, false, _) => [piece]
  | _, s => [s]

/-- `s.split(sep, limit)`. -/
def split (sep : Char) (limit : Nat) (s : Text) : List Text := if s = [] then [] else splitUpTo sep limit s

/-- Digits with single underscores between them; the flag says whether the last character was a digit. -/
def digits : Nat → Bool → Text → Option Nat
  | value, digit, [] => if digit then some value else none
  | value, digit, c :: rest =>
    if c.isDigit then digits (value * 10 + (c.toNat - '0'.toNat)) true rest
    else if c = '_' ∧ digit = true then digits value false rest
    else none

/-- The digits may follow `0d`. -/
def unsigned (s : Text) : Option Nat :=
  match s with
  | '0' :: 'd' :: rest => digits 0 false rest
  | '0' :: 'D' :: rest => digits 0 false rest
  | s => digits 0 false s

/-- `Integer(s, 10)`; `none` is an `ArgumentError`. -/
def integer (s : Text) : Option Int :=
  match ((s.dropWhile isSpace).reverse.dropWhile isSpace).reverse with
  | '-' :: rest => (unsigned rest).map fun n => -(n : Int)
  | '+' :: rest => (unsigned rest).map fun n => (n : Int)
  | s => (unsigned s).map fun n => (n : Int)

def positiveInteger (value : Text) : Option Int := (integer value).filter fun parsed => 0 < parsed

def nonNegativeInteger (value : Text) : Option Int := (integer value).filter fun parsed => 0 ≤ parsed

/-- `Integer#/` rounds down. -/
def divideRoundingUp (dividend divisor : Int) : Except RubyError Int :=
  if divisor = 0 then .error .zeroDivision else .ok ((dividend + divisor - 1).fdiv divisor)

/-! ## The count -/

structure Cores where
  active : Int
  total : Int
  deriving DecidableEq, Repr

/-- The fields of a line after the name: sockets, cores per socket, threads per core, and the state of the CPUs. -/
structure Fields where
  sockets : Text
  coresPerSocket : Text
  threadsPerCore : Text
  cpuState : Text
  deriving DecidableEq

/-- `total_cores`, where both factors are known. -/
def knownCores (fields : Fields) : Option Int :=
  match positiveInteger fields.sockets, positiveInteger fields.coresPerSocket with
  | some sockets, some coresPerSocket => some (sockets * coresPerSocket)
  | _, _ => none

/-- `threads_per_core`, derived from the total where it is not known. -/
def threadsOf (fields : Fields) (totalThreads : Int) : Except RubyError (Option Int) :=
  match positiveInteger fields.threadsPerCore, knownCores fields with
  | none, some totalCores =>
    if 0 < totalThreads then (divideRoundingUp totalThreads totalCores).map some else .ok none
  | threadsPerCore, _ => .ok threadsPerCore

/-- `total_cores`, derived from the threads where it is not known. -/
def totalCoresOf (fields : Fields) (totalThreads threadsPerCore : Int) : Except RubyError Int :=
  match knownCores fields with
  | some totalCores => .ok totalCores
  | none => divideRoundingUp totalThreads threadsPerCore

/-- The entry of a node; `none` where `counts` returns `nil`. -/
def nodeCores (fields : Fields) : Except RubyError (Option Cores) :=
  match split '/' 4 fields.cpuState with
  | [allocated, _, _, total] =>
    match nonNegativeInteger allocated, nonNegativeInteger total with
    | some allocatedThreads, some totalThreads => do
      let threadsPerCore ← threadsOf fields totalThreads
      match threadsPerCore with
      | none => return none
      | some threadsPerCore =>
        let totalCores ← totalCoresOf fields totalThreads threadsPerCore
        if 0 < totalCores then
          let activeCores ← divideRoundingUp allocatedThreads threadsPerCore
          return some ⟨min activeCores totalCores, totalCores⟩
        else return none
    | _, _ => .ok none
  | _ => .ok none

/-- A line: one to pass over, one at which `counts` returns `nil`, or the name of a node and its fields. -/
inductive Line
  | skipped
  | malformed
  | node (name : Text) (fields : Fields)
  deriving DecidableEq

def readLine (line : Text) : Line :=
  let line := strip line
  if line = [] ∨ "CLUSTER:".toList.isPrefixOf line then .skipped
  else match split '|' 5 line with
    | [name, sockets, coresPerSocket, threadsPerCore, cpuState] =>
      if strip name = [] then .malformed
      else .node (strip name) ⟨sockets, coresPerSocket, threadsPerCore, cpuState⟩
    | _ => .malformed

/-- `each_line`, with the nodes so far. -/
def countLines : List Line → List (Text × Cores) → Except RubyError (Option (List (Text × Cores)))
  | [], nodes => .ok (some nodes)
  | .skipped :: rest, nodes => countLines rest nodes
  | .malformed :: _, _ => .ok none
  | .node name fields :: rest, nodes =>
    if name ∈ nodes.map (·.1) then countLines rest nodes
    else match nodeCores fields with
      | .error e => .error e
      | .ok none => .ok none
      | .ok (some cores) => countLines rest (setKey name cores nodes)

def sumCores (nodes : List (Text × Cores)) : Cores :=
  ⟨(nodes.map fun node => node.2.active).sum, (nodes.map fun node => node.2.total).sum⟩

def linesOf (sinfoOutput : Text) : List Line := (linesFrom [] sinfoOutput).map readLine

def counts (sinfoOutput : Text) : Except RubyError (Option Cores) := do
  match ← countLines (linesOf sinfoOutput) [] with
  | none => return none
  | some [] => return none
  | some nodes => return some (sumCores nodes)

/-! ## One node -/

/-- What the cores of a node are: `sockets * cores` where both are known, and the allocated threads by core, rounded up
and capped. What is not known is derived from all threads, rounded up. -/
structure Describes (fields : Fields) (cores : Cores) : Prop where
  total_pos : 0 < cores.total
  known : ∀ sockets coresPerSocket, positiveInteger fields.sockets = some sockets →
    positiveInteger fields.coresPerSocket = some coresPerSocket → cores.total = sockets * coresPerSocket
  active : ∃ allocated idle other total allocatedThreads totalThreads threadsPerCore,
    split '/' 4 fields.cpuState = [allocated, idle, other, total] ∧
    nonNegativeInteger allocated = some allocatedThreads ∧ nonNegativeInteger total = some totalThreads ∧
    0 < threadsPerCore ∧
    (∀ known, positiveInteger fields.threadsPerCore = some known → threadsPerCore = known) ∧
    (positiveInteger fields.threadsPerCore = none → threadsPerCore = ⌈(totalThreads : ℚ) / cores.total⌉) ∧
    (knownCores fields = none → cores.total = ⌈(totalThreads : ℚ) / threadsPerCore⌉) ∧
    cores.active = min ⌈(allocatedThreads : ℚ) / threadsPerCore⌉ cores.total

theorem divideRoundingUp_eq {dividend divisor : Int} (h : 0 < divisor) :
    divideRoundingUp dividend divisor = .ok ⌈(dividend : ℚ) / divisor⌉ := by
  rw [divideRoundingUp, if_neg h.ne']
  have hceil : ⌈(dividend : ℚ) / divisor⌉ = (dividend + divisor - 1).fdiv divisor := by
    have hq : (0 : ℚ) < divisor := by exact_mod_cast h
    rw [Int.fdiv_eq_ediv_of_nonneg _ h.le]
    have hmod := Int.emod_add_mul_ediv (dividend + divisor - 1) divisor
    have hlow := Int.emod_nonneg (dividend + divisor - 1) h.ne'
    have hhigh := Int.emod_lt_of_pos (dividend + divisor - 1) h
    generalize (dividend + divisor - 1) / divisor = q at *
    rw [Int.ceil_eq_iff, lt_div_iff₀ hq, div_le_iff₀ hq]
    constructor
    · have hint : (q - 1) * divisor < dividend := by linarith [mul_comm divisor q]
      exact_mod_cast hint
    · have hint : dividend ≤ q * divisor := by linarith [mul_comm divisor q]
      exact_mod_cast hint
  rw [hceil]

theorem positive_of_positiveInteger {value : Text} {n : Int} (h : positiveInteger value = some n) : 0 < n := by
  simpa using (Option.filter_eq_some_iff.mp h).2

theorem nonneg_of_nonNegativeInteger {value : Text} {n : Int} (h : nonNegativeInteger value = some n) : 0 ≤ n := by
  simpa using (Option.filter_eq_some_iff.mp h).2

theorem knownCores_pos {fields : Fields} {n : Int} (h : knownCores fields = some n) : 0 < n := by
  unfold knownCores at h
  split at h
  · rename_i sockets coresPerSocket hsockets hcores
    cases h
    exact mul_pos (positive_of_positiveInteger hsockets) (positive_of_positiveInteger hcores)
  · cases h

theorem ceil_nonneg {a t : Int} (ha : 0 ≤ a) (ht : 0 < t) : 0 ≤ ⌈(a : ℚ) / t⌉ := by
  apply Int.ceil_nonneg
  positivity

theorem threadsOf_spec (fields : Fields) (totalThreads : Int) :
    ∃ r, threadsOf fields totalThreads = .ok r ∧ ∀ threadsPerCore, r = some threadsPerCore →
      0 < threadsPerCore ∧ (∀ known, positiveInteger fields.threadsPerCore = some known → threadsPerCore = known) ∧
      (positiveInteger fields.threadsPerCore = none → ∃ totalCores, knownCores fields = some totalCores ∧
        threadsPerCore = ⌈(totalThreads : ℚ) / totalCores⌉) := by
  unfold threadsOf
  split
  · rename_i totalCores hunknown hknown
    split
    case isTrue hpositive =>
      have hcores := knownCores_pos hknown
      rw [divideRoundingUp_eq hcores]
      refine ⟨_, rfl, fun threadsPerCore hthreads => ?_⟩
      cases hthreads
      refine ⟨Int.ceil_pos.mpr ?_, fun known hk => ?_, fun _ => ⟨totalCores, hknown, rfl⟩⟩
      · have htotal : (0 : ℚ) < totalThreads := by exact_mod_cast hpositive
        have hq : (0 : ℚ) < totalCores := by exact_mod_cast hcores
        exact div_pos htotal hq
      · exact nomatch hunknown.symm.trans hk
    case isFalse => exact ⟨none, rfl, nofun⟩
  · refine ⟨_, rfl, fun threadsPerCore hthreads => ⟨positive_of_positiveInteger hthreads, fun known hknown => ?_,
      fun hnone => nomatch hnone.symm.trans hthreads⟩⟩
    exact Option.some.inj (hthreads.symm.trans hknown)

theorem totalCoresOf_spec (fields : Fields) (totalThreads : Int) {threadsPerCore : Int} (h : 0 < threadsPerCore) :
    ∃ totalCores, totalCoresOf fields totalThreads threadsPerCore = .ok totalCores ∧
      (∀ n, knownCores fields = some n → totalCores = n) ∧
      (knownCores fields = none → totalCores = ⌈(totalThreads : ℚ) / threadsPerCore⌉) := by
  unfold totalCoresOf
  cases knownCores fields with
  | some totalCores => exact ⟨totalCores, rfl, fun n hn => Option.some.inj hn, nofun⟩
  | none => exact ⟨_, divideRoundingUp_eq h, nofun, fun _ => rfl⟩

/-- **The entry of a node.** Nothing is divided by zero. -/
theorem nodeCores_spec (fields : Fields) :
    ∃ r, nodeCores fields = .ok r ∧ ∀ cores, r = some cores →
      Describes fields cores ∧ 0 ≤ cores.active ∧ cores.active ≤ cores.total := by
  unfold nodeCores
  split
  · rename_i allocated idle other total hcpuState
    split
    · rename_i allocatedThreads totalThreads hallocated htotal
      obtain ⟨threads, hthreads, hspec⟩ := threadsOf_spec fields totalThreads
      rw [hthreads]
      cases threads with
      | none => exact ⟨none, rfl, nofun⟩
      | some threadsPerCore =>
        obtain ⟨hpositive, hknown, hderived⟩ := hspec threadsPerCore rfl
        obtain ⟨totalCores, htotalCores, hfactors, hunknown⟩ := totalCoresOf_spec fields totalThreads hpositive
        show ∃ r, (totalCoresOf fields totalThreads threadsPerCore >>= fun totalCores =>
          if 0 < totalCores then
            divideRoundingUp allocatedThreads threadsPerCore >>= fun activeCores =>
              pure (some ⟨min activeCores totalCores, totalCores⟩)
          else pure none : Except RubyError (Option Cores)) = .ok r ∧ _
        rw [htotalCores]
        show ∃ r, (if 0 < totalCores then
            divideRoundingUp allocatedThreads threadsPerCore >>= fun activeCores =>
              pure (some ⟨min activeCores totalCores, totalCores⟩)
          else pure none : Except RubyError (Option Cores)) = .ok r ∧ _
        split
        case isFalse => exact ⟨none, rfl, nofun⟩
        case isTrue htotalPos =>
          rw [divideRoundingUp_eq hpositive]
          refine ⟨_, rfl, fun cores hcores => ?_⟩
          cases hcores
          have hactive := ceil_nonneg (nonneg_of_nonNegativeInteger hallocated) hpositive
          refine ⟨⟨htotalPos, fun sockets coresPerSocket hsockets hcores => hfactors _ ?_, ?_⟩,
            le_min hactive htotalPos.le, min_le_right _ _⟩
          · unfold knownCores
            rw [hsockets, hcores]
          · refine ⟨allocated, idle, other, total, allocatedThreads, totalThreads, threadsPerCore, hcpuState, hallocated,
              htotal, hpositive, hknown, fun hnone => ?_, hunknown, rfl⟩
            obtain ⟨n, hn, hthreadsPerCore⟩ := hderived hnone
            rw [hfactors n hn]
            exact hthreadsPerCore
    · exact ⟨none, rfl, nofun⟩
  · exact ⟨none, rfl, nofun⟩

/-! ## All nodes -/

def Line.named (line : Line) : Option (Text × Fields) :=
  match line with
  | .node name fields => some (name, fields)
  | _ => none

/-- The nodes after some of the lines: each name once, with the cores of its first line. -/
structure Counted (done : List Line) (nodes : List (Text × Cores)) : Prop where
  nodup : (nodes.map (·.1)).Nodup
  names : ∀ name, name ∈ nodes.map (·.1) ↔ name ∈ (done.filterMap Line.named).map (·.1)
  first : ∀ name cores, (name, cores) ∈ nodes → ∃ before fields after,
    done = before ++ .node name fields :: after ∧ name ∉ (before.filterMap Line.named).map (·.1) ∧
      nodeCores fields = .ok (some cores) ∧ Describes fields cores

theorem setKey_fresh {name : Text} {cores : Cores} {nodes : List (Text × Cores)} (h : name ∉ nodes.map (·.1)) :
    setKey name cores nodes = nodes ++ [(name, cores)] := by
  induction nodes with
  | nil => rfl
  | cons node rest ih =>
    rw [List.map_cons] at h
    rw [setKey, if_neg (Ne.symm (List.ne_of_not_mem_cons h)), ih (List.not_mem_of_not_mem_cons h), List.cons_append]

theorem Counted.skip {done : List Line} {nodes : List (Text × Cores)} (h : Counted done nodes) {line : Line}
    (hline : ∀ name fields, line = .node name fields → name ∈ nodes.map (·.1)) : Counted (done ++ [line]) nodes := by
  refine ⟨h.nodup, fun name => ?_, fun name cores hmem => ?_⟩
  · rw [h.names, List.filterMap_append, List.map_append, List.mem_append]
    refine (or_iff_left_of_imp fun hmem => ?_).symm
    cases line with
    | node name' fields =>
      obtain rfl : name = name' := by simpa [Line.named] using hmem
      exact (h.names name).mp (hline name fields rfl)
    | _ => cases hmem
  · obtain ⟨before, fields, after, rfl, hfresh, hcores⟩ := h.first name cores hmem
    exact ⟨before, fields, after ++ [line], by simp, hfresh, hcores⟩

theorem Counted.add {done : List Line} {nodes : List (Text × Cores)} (h : Counted done nodes) {name : Text}
    {fields : Fields} {cores : Cores} (hfresh : name ∉ nodes.map (·.1))
    (hcores : nodeCores fields = .ok (some cores) ∧ Describes fields cores) :
    Counted (done ++ [.node name fields]) (setKey name cores nodes) := by
  refine ⟨nodup_keys_setKey h.nodup, fun other => ?_, fun other cores' hmem => ?_⟩
  · rw [setKey_fresh hfresh, List.map_append, List.mem_append, h.names, List.filterMap_append, List.map_append,
      List.mem_append]
    rfl
  · rw [setKey_fresh hfresh] at hmem
    rcases List.mem_append.mp hmem with hmem | hmem
    · obtain ⟨before, fields', after, rfl, hnew, hcores'⟩ := h.first other cores' hmem
      exact ⟨before, fields', after ++ [.node name fields], by simp, hnew, hcores'⟩
    · obtain ⟨rfl, rfl⟩ := Prod.mk.inj (List.mem_singleton.mp hmem)
      exact ⟨done, fields, [], rfl, fun hmem' => hfresh ((h.names other).mpr hmem'), hcores⟩

theorem countLines_spec (lines done : List Line) (nodes : List (Text × Cores)) (h : Counted done nodes) :
    ∃ r, countLines lines nodes = .ok r ∧ ∀ nodes', r = some nodes' → Counted (done ++ lines) nodes' := by
  induction lines generalizing done nodes with
  | nil =>
    refine ⟨_, rfl, fun nodes' hnodes => ?_⟩
    cases hnodes
    rw [List.append_nil]
    exact h
  | cons line rest ih =>
    have hstep : ∀ nodes', Counted (done ++ [line]) nodes' →
        ∃ r, countLines rest nodes' = .ok r ∧ ∀ nodes'', r = some nodes'' → Counted (done ++ line :: rest) nodes'' := by
      intro nodes' hnodes'
      obtain ⟨r, hr, hcounted⟩ := ih (done ++ [line]) nodes' hnodes'
      rw [List.append_assoc, List.singleton_append] at hcounted
      exact ⟨r, hr, hcounted⟩
    cases line with
    | skipped => exact hstep nodes (h.skip nofun)
    | malformed => exact ⟨none, rfl, nofun⟩
    | node name fields =>
      rw [countLines]
      split
      case isTrue hseen =>
        refine hstep nodes (h.skip fun name' fields' heq => ?_)
        cases heq
        exact hseen
      case isFalse hfresh =>
        obtain ⟨r, hr, hdescribes⟩ := nodeCores_spec fields
        rw [hr]
        cases r with
        | none => exact ⟨none, rfl, nofun⟩
        | some cores => exact hstep _ (h.add hfresh ⟨hr, (hdescribes cores rfl).1⟩)

theorem sum_nonneg_of {nodes : List (Text × Cores)} {value : Cores → Int} (h : ∀ node ∈ nodes, 0 ≤ value node.2) :
    0 ≤ (nodes.map fun node => value node.2).sum := by
  apply List.sum_nonneg
  intro n hn
  obtain ⟨node, hnode, rfl⟩ := List.mem_map.mp hn
  exact h node hnode

/-- **The count of every output.** It returns, and where it returns a pair each node counts once. -/
theorem counts_spec (sinfoOutput : Text) :
    ∃ r, counts sinfoOutput = .ok r ∧ ∀ cores, r = some cores →
      0 ≤ cores.active ∧ cores.active ≤ cores.total ∧ 0 < cores.total ∧
      ∃ nodes, cores = sumCores nodes ∧ Counted (linesOf sinfoOutput) nodes := by
  obtain ⟨r, hr, hcounted⟩ := countLines_spec (linesOf sinfoOutput) [] [] ⟨List.nodup_nil, by simp, nofun⟩
  unfold counts
  rw [hr]
  match r, hcounted with
  | none, _ => exact ⟨none, rfl, nofun⟩
  | some [], _ => exact ⟨none, rfl, nofun⟩
  | some (first :: rest), hcounted =>
    refine ⟨_, rfl, fun cores hcores => ?_⟩
    cases hcores
    have h := hcounted _ rfl
    rw [List.nil_append] at h
    have hnodes : ∀ node ∈ first :: rest, 0 ≤ node.2.active ∧ node.2.active ≤ node.2.total ∧ 0 < node.2.total := by
      intro node hmem
      obtain ⟨before, fields, after, -, -, hcores, hdescribes⟩ := h.first node.1 node.2 hmem
      obtain ⟨r, hr, hspec⟩ := nodeCores_spec fields
      rw [hcores] at hr
      cases hr
      exact ⟨(hspec _ rfl).2.1, (hspec _ rfl).2.2, hdescribes.total_pos⟩
    refine ⟨?_, ?_, ?_, first :: rest, rfl, h⟩
    · apply sum_nonneg_of
      exact fun node hnode => (hnodes node hnode).1
    · apply List.sum_le_sum
      exact fun node hnode => (hnodes node hnode).2.1
    · have hrest := @sum_nonneg_of rest Cores.total fun node hnode =>
        (hnodes node (List.mem_cons_of_mem _ hnode)).2.2.le
      have hfirst := (hnodes first List.mem_cons_self).2.2
      show 0 < ((first :: rest).map fun node => node.2.total).sum
      rw [List.map_cons, List.sum_cons]
      omega

/-! ## The order of the lines -/

def Line.entry : Line → Option (Text × Cores)
  | .node name fields => match nodeCores fields with
    | .ok (some cores) => some (name, cores)
    | _ => none
  | _ => none

/-- `counts` does not return `nil` at the line. -/
def Line.good : Line → Bool
  | .skipped => true
  | .malformed => false
  | .node name fields => (Line.node name fields).entry.isSome

theorem countLines_distinct {lines : List Line} {nodes : List (Text × Cores)}
    (h : ((lines.filterMap Line.named).map (·.1)).Nodup)
    (hnew : ∀ name ∈ (lines.filterMap Line.named).map (·.1), name ∉ nodes.map (·.1)) :
    countLines lines nodes = .ok (if lines.all Line.good then some (nodes ++ lines.filterMap Line.entry) else none) := by
  induction lines generalizing nodes with
  | nil => simp [countLines]
  | cons line rest ih =>
    cases line with
    | skipped => exact ih h hnew
    | malformed => rfl
    | node name fields =>
      have hnodup : name ∉ (rest.filterMap Line.named).map (·.1) ∧ ((rest.filterMap Line.named).map (·.1)).Nodup :=
        List.nodup_cons.mp h
      have hfresh : name ∉ nodes.map (·.1) := hnew name List.mem_cons_self
      obtain ⟨r, hr, -⟩ := nodeCores_spec fields
      rw [countLines, if_neg hfresh, hr]
      cases r with
      | none =>
        have hbad : (Line.node name fields).good = false := by
          unfold Line.good Line.entry
          dsimp only
          rw [hr]
          rfl
        rw [List.all_cons, hbad, Bool.false_and, if_neg Bool.false_ne_true]
      | some cores =>
        have hentry : (Line.node name fields).entry = some (name, cores) := by
          unfold Line.entry
          dsimp only
          rw [hr]
        have hgood : (Line.node name fields).good = true := by
          show (Line.node name fields).entry.isSome = true
          rw [hentry]
          rfl
        dsimp only
        rw [setKey_fresh hfresh, ih hnodup.2, List.all_cons, hgood, Bool.true_and, List.filterMap_cons, hentry,
          List.append_assoc, List.singleton_append]
        intro other hother hmem
        rw [List.map_append, List.mem_append] at hmem
        rcases hmem with hmem | hmem
        · exact hnew other (List.mem_cons_of_mem _ hother) hmem
        · obtain rfl : other = name := List.mem_singleton.mp hmem
          exact hnodup.1 hother

/-- What `counts` returns for the nodes. -/
def total : Option (List (Text × Cores)) → Option Cores
  | none => none
  | some [] => none
  | some nodes => some (sumCores nodes)

theorem counts_eq {sinfoOutput : Text} {r : Option (List (Text × Cores))}
    (h : countLines (linesOf sinfoOutput) [] = .ok r) : counts sinfoOutput = .ok (total r) := by
  unfold counts
  rw [h]
  match r with
  | none => rfl
  | some [] => rfl
  | some (_ :: _) => rfl

theorem total_perm {nodes nodes' : List (Text × Cores)} (h : nodes.Perm nodes') :
    total (some nodes) = total (some nodes') := by
  cases nodes with
  | nil => rw [List.nil_perm.mp h]
  | cons first rest =>
    cases nodes' with
    | nil => exact absurd h.length_eq (by simp)
    | cons first' rest' =>
      show some (sumCores _) = some (sumCores _)
      unfold sumCores
      rw [(h.map fun node => node.2.active).sum_eq, (h.map fun node => node.2.total).sum_eq]

/-- The text of the lines, each with its newline. -/
def textOf (lines : List Text) : Text := lines.flatMap fun line => line ++ ['\n']

theorem linesOf_textOf {lines : List Text} (h : ∀ line ∈ lines, '\n' ∉ line) :
    linesOf (textOf lines) = lines.map fun line => readLine (line ++ ['\n']) := by
  unfold linesOf textOf
  induction lines with
  | nil => rfl
  | cons line rest ih =>
    rw [List.flatMap_cons, List.append_assoc, List.singleton_append, linesFrom_append (h line List.mem_cons_self),
      List.map_cons, ih fun other hother => h other (List.mem_cons_of_mem _ hother), List.reverse_nil, List.nil_append,
      List.map_cons]

def nodeNames (sinfoOutput : Text) : List Text := ((linesOf sinfoOutput).filterMap Line.named).map (·.1)

/-- **Lines of distinct nodes count the same in every order.** -/
theorem counts_perm {lines lines' : List Text} (hperm : lines.Perm lines') (hlines : ∀ line ∈ lines, '\n' ∉ line)
    (hnodup : (nodeNames (textOf lines)).Nodup) : counts (textOf lines) = counts (textOf lines') := by
  have hread : (linesOf (textOf lines)).Perm (linesOf (textOf lines')) := by
    rw [linesOf_textOf hlines, linesOf_textOf fun line hline => hlines line (hperm.mem_iff.mpr hline)]
    exact hperm.map _
  have hnodup' : (nodeNames (textOf lines')).Nodup := ((hread.filterMap _).map _).nodup_iff.mp hnodup
  have hall : (linesOf (textOf lines)).all Line.good = (linesOf (textOf lines')).all Line.good := by
    rw [Bool.eq_iff_iff, List.all_eq_true, List.all_eq_true]
    simp only [hread.mem_iff]
  rw [counts_eq (countLines_distinct hnodup fun _ _ => List.not_mem_nil),
    counts_eq (countLines_distinct hnodup' fun _ _ => List.not_mem_nil), hall]
  split
  · rw [List.nil_append, List.nil_append, total_perm (hread.filterMap _)]
  · rfl

/-- **Physical core totals.** The count returns `nil` or a pair of sums over the nodes, each by the first line of its
name; and lines of distinct nodes may come in any order. -/
theorem physicalCores_spec :
    (∀ sinfoOutput, ∃ r, counts sinfoOutput = .ok r ∧ ∀ cores, r = some cores →
      0 ≤ cores.active ∧ cores.active ≤ cores.total ∧ 0 < cores.total ∧
      ∃ nodes, cores = sumCores nodes ∧ Counted (linesOf sinfoOutput) nodes) ∧
    ∀ lines lines' : List Text, lines.Perm lines' → (∀ line ∈ lines, '\n' ∉ line) → (nodeNames (textOf lines)).Nodup →
      counts (textOf lines) = counts (textOf lines') :=
  ⟨counts_spec, fun _ _ hperm hlines hnodup => counts_perm hperm hlines hnodup⟩

/-- A node with two threads on each core, in two partitions, and one whose threads per core are not known. -/
example : counts (textOf ["n1|2|4|2|5/11/0/16".toList, "n1|2|4|2|5/11/0/16".toList, "n2|1|4|*|0/4/0/4".toList]) =
    .ok (some ⟨3, 12⟩) := by decide +kernel

end OciHpc.OpenOnDemand
