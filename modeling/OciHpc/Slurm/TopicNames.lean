import OciHpc.Slurm.TopicAgreement

/-!
# The names of the Topics

* `IsTopicName` : what a Topic may be called;
* `isTopicName_of_scope` : the naming function keeps it, whatever the cluster and the user are called;
* `identity_inj` : the text that is hashed tells the scope and the user apart;
* `topicNames_tell_apart` : so does the name, in both copies of the function.
-/

namespace OciHpc.Slurm

/-- Not empty, at most 116 characters, all of `[a-z0-9_-]`. -/
structure IsTopicName (name : String) : Prop where
  ne : name ≠ ""
  length : name.length ≤ 116
  chars : ∀ c ∈ name.toList, isComponentChar c = true

/-- `hexdigest()` of a SHA-256: 64 hexadecimal digits in lower case. -/
def IsHexDigest (digest : String) : Prop :=
  digest.length = 64 ∧ ∀ c ∈ digest.toList, ('0' ≤ c ∧ c ≤ '9') ∨ ('a' ≤ c ∧ c ≤ 'f')

def digestStart (digest : String) : List Char := digest.toList.take 12

def topicIdentity (clusterScopeId user : String) : String := clusterScopeId ++ ":" ++ user

/-- The configuration of the cluster CLI names this scope. -/
structure ConfiguresScope (config : Dict) (scope : Scope) : Prop where
  name : Dict.get? config "cluster_name" = some (.str scope.clusterName)
  scopeId : Dict.get? config "cluster_scope_id" = some (.str scope.clusterScopeId)

/-! ## The components -/

theorem isComponentChar_of_mem_replaceOthers {s : List Char} {replaced : Bool} {c : Char}
    (h : c ∈ replaceOthers replaced s) : isComponentChar c = true := by
  induction s generalizing replaced with
  | nil => cases h
  | cons d s ih =>
    unfold replaceOthers at h
    split at h
    case isTrue hd =>
      obtain rfl | h := List.mem_cons.mp h
      · exact hd
      · exact ih h
    case isFalse =>
      split at h
      · exact ih h
      · obtain rfl | h := List.mem_cons.mp h
        · decide
        · exact ih h

theorem isComponentChar_of_mem_topicComponent {value : String} {maximumLength : Nat} {c : Char}
    (h : c ∈ (topicComponent value maximumLength).toList) : isComponentChar c = true := by
  unfold topicComponent at h
  dsimp only at h
  rw [String.toList_ofList] at h
  replace h := List.mem_of_mem_take h
  split at h
  · have huser : "user".toList.all isComponentChar = true := by decide
    exact List.all_eq_true.mp huser c h
  · have hdrop := (List.dropWhile_suffix _).mem (List.mem_reverse.mp h)
    exact isComponentChar_of_mem_replaceOthers ((List.dropWhile_suffix _).mem (List.mem_reverse.mp hdrop))

theorem length_topicComponent (value : String) (maximumLength : Nat) :
    (topicComponent value maximumLength).toList.length ≤ maximumLength := by
  unfold topicComponent
  rw [String.toList_ofList]
  exact List.length_take_le _ _

/-! ## The digest -/

variable {sha256Hex : String → String}

theorem length_digestStart {digest : String} (h : IsHexDigest digest) : (digestStart digest).length = 12 := by
  have hlength := h.1
  rw [← String.length_toList] at hlength
  unfold digestStart
  rw [List.length_take, hlength]
  rfl

theorem isComponentChar_of_mem_digestStart {digest : String} {c : Char} (h : IsHexDigest digest)
    (hmem : c ∈ digestStart digest) : isComponentChar c = true := by
  have hdigit := h.2 c (List.mem_of_mem_take hmem)
  unfold isComponentChar
  simp only [Bool.or_eq_true, Bool.and_eq_true, decide_eq_true_eq]
  obtain hdigit | hletter := hdigit
  · exact .inl (.inl (.inr hdigit))
  · have hz : 'f' ≤ 'z' := by decide
    exact .inl (.inl (.inl ⟨hletter.1, Char.le_trans hletter.2 hz⟩))

/-! ## The name -/

def topicStem (scope : Scope) (user : String) : List Char :=
  "slurm-".toList ++ (topicComponent scope.clusterName 48).toList ++ '-' :: (topicComponent user 48).toList ++ ['-']

theorem toList_notificationTopicName (scope : Scope) (user : String) :
    (notificationTopicName sha256Hex scope user).toList =
      topicStem scope user ++ digestStart (sha256Hex (topicIdentity scope.clusterScopeId user)) := by
  unfold notificationTopicName topicStem digestStart topicIdentity
  simp

theorem length_topicStem (scope : Scope) (user : String) : (topicStem scope user).length ≤ 104 := by
  have hcluster := length_topicComponent scope.clusterName 48
  have huser := length_topicComponent user 48
  unfold topicStem
  simp only [List.length_append, List.length_cons, List.length_nil]
  have hslurm : "slurm-".toList.length = 6 := rfl
  omega

theorem isComponentChar_of_mem_topicStem {scope : Scope} {user : String} {c : Char} (h : c ∈ topicStem scope user) :
    isComponentChar c = true := by
  have hslurm : "slurm-".toList.all isComponentChar = true := by decide
  unfold topicStem at h
  simp only [List.mem_append, List.mem_cons, List.not_mem_nil, or_false] at h
  obtain ((hmem | hmem) | rfl | hmem) | rfl := h
  · exact List.all_eq_true.mp hslurm c hmem
  · exact isComponentChar_of_mem_topicComponent hmem
  · decide
  · exact isComponentChar_of_mem_topicComponent hmem
  · decide

/-- **Every name is one a Topic may have.** -/
theorem isTopicName_of_scope (scope : Scope) (user : String)
    (hdigest : IsHexDigest (sha256Hex (topicIdentity scope.clusterScopeId user))) :
    IsTopicName (notificationTopicName sha256Hex scope user) where
  ne := by
    intro hnil
    have hlist := congrArg String.toList hnil
    rw [toList_notificationTopicName] at hlist
    unfold topicStem at hlist
    simp at hlist
  length := by
    have hstem := length_topicStem scope user
    have hstart := length_digestStart hdigest
    rw [← String.length_toList, toList_notificationTopicName, List.length_append]
    omega
  chars := by
    intro c hc
    rw [toList_notificationTopicName] at hc
    obtain hstem | hstart := List.mem_append.mp hc
    · exact isComponentChar_of_mem_topicStem hstem
    · exact isComponentChar_of_mem_digestStart hdigest hstart

theorem identity_inj {scopeId₁ scopeId₂ user₁ user₂ : String} (h₁ : ':' ∉ user₁.toList) (h₂ : ':' ∉ user₂.toList)
    (h : topicIdentity scopeId₁ user₁ = topicIdentity scopeId₂ user₂) : (scopeId₁, user₁) = (scopeId₂, user₂) := by
  have hreverse : ∀ scopeId user : String,
      (topicIdentity scopeId user).toList.reverse = user.toList.reverse ++ ':' :: scopeId.toList.reverse := by
    intro scopeId user
    unfold topicIdentity
    simp
  have hsplit := congrArg (fun text => PyStr.partition ':' text.toList.reverse) h
  rw [hreverse, hreverse, PyStr.partition_append (fun hmem => h₁ (List.mem_reverse.mp hmem)),
    PyStr.partition_append (fun hmem => h₂ (List.mem_reverse.mp hmem))] at hsplit
  simp only [Prod.mk.injEq, true_and, List.reverse_inj, String.toList_inj] at hsplit
  exact Prod.ext hsplit.2 hsplit.1

theorem digestStart_of_eq {scope₁ scope₂ : Scope} {user₁ user₂ : String} (hdigest : ∀ text, IsHexDigest (sha256Hex text))
    (h : notificationTopicName sha256Hex scope₁ user₁ = notificationTopicName sha256Hex scope₂ user₂) :
    digestStart (sha256Hex (topicIdentity scope₁.clusterScopeId user₁)) =
      digestStart (sha256Hex (topicIdentity scope₂.clusterScopeId user₂)) := by
  have hlist := congrArg String.toList h
  rw [toList_notificationTopicName, toList_notificationTopicName] at hlist
  exact List.append_inj_right' hlist ((length_digestStart (hdigest _)).trans (length_digestStart (hdigest _)).symm)

theorem notificationTopicName_ne {scope₁ scope₂ : Scope} {user₁ user₂ : String}
    (hdigest : ∀ text, IsHexDigest (sha256Hex text)) (h₁ : ':' ∉ user₁.toList) (h₂ : ':' ∉ user₂.toList)
    (hdiffer : (scope₁.clusterScopeId, user₁) ≠ (scope₂.clusterScopeId, user₂))
    (hcollide : topicIdentity scope₁.clusterScopeId user₁ ≠ topicIdentity scope₂.clusterScopeId user₂ →
      digestStart (sha256Hex (topicIdentity scope₁.clusterScopeId user₁)) ≠
        digestStart (sha256Hex (topicIdentity scope₂.clusterScopeId user₂))) :
    notificationTopicName sha256Hex scope₁ user₁ ≠ notificationTopicName sha256Hex scope₂ user₂ := by
  intro hsame
  have hidentity : topicIdentity scope₁.clusterScopeId user₁ ≠ topicIdentity scope₂.clusterScopeId user₂ :=
    fun heq => hdiffer (identity_inj h₁ h₂ heq)
  exact hcollide hidentity (digestStart_of_eq hdigest hsame)

/-- **Topic names**, of both copies of the naming function. -/
theorem topicNames_tell_apart (hdigest : ∀ text, IsHexDigest (sha256Hex text)) :
    (∀ scope user, IsTopicName (notificationTopicName sha256Hex scope user)) ∧
    (∀ config scope user, ConfiguresScope config scope →
      IsTopicName (ClusterCli.notificationTopicName sha256Hex config user)) ∧
    ∀ (scope₁ scope₂ : Scope) (user₁ user₂ : String), ':' ∉ user₁.toList → ':' ∉ user₂.toList →
      (scope₁.clusterScopeId, user₁) ≠ (scope₂.clusterScopeId, user₂) →
      (topicIdentity scope₁.clusterScopeId user₁ ≠ topicIdentity scope₂.clusterScopeId user₂ →
        digestStart (sha256Hex (topicIdentity scope₁.clusterScopeId user₁)) ≠
          digestStart (sha256Hex (topicIdentity scope₂.clusterScopeId user₂))) →
      notificationTopicName sha256Hex scope₁ user₁ ≠ notificationTopicName sha256Hex scope₂ user₂ ∧
        ∀ config₁ config₂, ConfiguresScope config₁ scope₁ → ConfiguresScope config₂ scope₂ →
          ClusterCli.notificationTopicName sha256Hex config₁ user₁ ≠
            ClusterCli.notificationTopicName sha256Hex config₂ user₂ := by
  refine ⟨fun scope user => isTopicName_of_scope scope user (hdigest _), fun config scope user hconfig => ?_,
    fun scope₁ scope₂ user₁ user₂ h₁ h₂ hdiffer hcollide => ?_⟩
  · rw [notificationTopicName_eq hconfig.name hconfig.scopeId]
    exact isTopicName_of_scope scope user (hdigest _)
  · have hne := notificationTopicName_ne hdigest h₁ h₂ hdiffer hcollide
    refine ⟨hne, fun config₁ config₂ hconfig₁ hconfig₂ => ?_⟩
    rw [notificationTopicName_eq hconfig₁.name hconfig₁.scopeId, notificationTopicName_eq hconfig₂.name hconfig₂.scopeId]
    exact hne

/-! ## Two users with one component -/

def prodScope : Scope := ⟨"prod", "prod:brave-cat:0123456789ab"⟩

/-- SHA-256 of the identities of `alice` and `Alice`. -/
def someDigests (text : String) : String :=
  if text = "prod:brave-cat:0123456789ab:alice" then "33ee64f1c7bafb54417f9699d853a65b1476397c5586bbab2feedd7cd6757e5b"
  else "097ea62449f59321b3614e8e6f851c9a713aef779e41e95d55ea61912ffc730e"

theorem isHexDigest_someDigests (text : String) : IsHexDigest (someDigests text) := by
  have hdigits : ∀ digest : String, digest.length = 64 →
      digest.toList.all (fun c => ('0' ≤ c && c ≤ '9') || ('a' ≤ c && c ≤ 'f')) = true → IsHexDigest digest := by
    intro digest hlength hall
    refine ⟨hlength, fun c hc => ?_⟩
    simpa using List.all_eq_true.mp hall c hc
  unfold someDigests
  split
  · exact hdigits _ (by decide) (by decide)
  · exact hdigits _ (by decide) (by decide)

/-- `alice` and `Alice` fold to one component, and have names of their own. -/
theorem topicNames_alice : topicComponent "alice" 48 = topicComponent "Alice" 48 ∧
    notificationTopicName someDigests prodScope "alice" ≠ notificationTopicName someDigests prodScope "Alice" := by
  refine ⟨by decide, ?_⟩
  have hspec := topicNames_tell_apart isHexDigest_someDigests
  exact (hspec.2.2 prodScope prodScope "alice" "Alice" (by decide) (by decide) (by decide) fun _ => by decide).1

end OciHpc.Slurm
