import Mathlib.Algebra.Ring.Nat
import OciHpc.Resize.Instances
import OciHpc.Resize.Inventory

/-!
# The DNS names of a node

The index of a node in its private subnet is computed by Terraform from the octets of its address, and by
`resize.py` from the position in `hosts()`.

* `dotted`, `ipAddress` : an address as text, and `ipaddress.ip_address`;
* `Subnet`, `Subnet.hosts` : a private subnet, and its host addresses;
* `terraformIndex`, `hostIndex` : the two computations;
* `addDomains`, `removeDomains`, `pendingDomains` : the names each path creates or deletes;
* `one_node_one_name` : they agree.
-/

namespace OciHpc.Resize

/-! ## Addresses -/

def dotted (address : Nat) : Text :=
  (Nat.repr (address / 16777216 % 256)).toList ++ '.' :: (Nat.repr (address / 65536 % 256)).toList ++
    '.' :: (Nat.repr (address / 256 % 256)).toList ++ '.' :: (Nat.repr (address % 256)).toList

/-- An octet as `ipaddress` reads it: at most three decimal digits, no leading zero, at most 255. -/
def parseOctet (s : Text) : Option Nat :=
  if s.isEmpty || !s.all Char.isDigit || s.length > 3 || (s ≠ ['0'] && s.head? = some '0') then none
  else if Nat.ofDigitChars 10 s 0 > 255 then none else some (Nat.ofDigitChars 10 s 0)

/-- `ipaddress.ip_address(s)` for an IPv4 address: `none` is a `ValueError`. -/
def ipAddress (s : Text) : Option Nat :=
  match splitAt '.' s with
  | [a, b, c, d] => do
      let a ← parseOctet a
      let b ← parseOctet b
      let c ← parseOctet c
      let d ← parseOctet d
      some (((a * 256 + b) * 256 + c) * 256 + d)
  | _ => none

/-- `tonumber(s)` of Terraform, on a natural number in decimal digits. -/
def tonumber (s : Text) : Option Nat :=
  if s.isEmpty || !s.all Char.isDigit then none else some (Nat.ofDigitChars 10 s 0)

theorem dot_not_mem_repr (n : Nat) : '.' ∉ (Nat.repr n).toList := by
  intro h
  rw [Nat.toList_repr] at h
  exact absurd (Nat.isDigit_of_mem_toDigits (by decide) (by decide) h) (by decide)

theorem splitAt_dotted (address : Nat) : splitAt '.' (dotted address) =
    [(Nat.repr (address / 16777216 % 256)).toList, (Nat.repr (address / 65536 % 256)).toList,
      (Nat.repr (address / 256 % 256)).toList, (Nat.repr (address % 256)).toList] := by
  unfold dotted splitAt
  simp only [List.append_assoc, List.cons_append]
  rw [PyStr.splitFrom_append (dot_not_mem_repr _), PyStr.splitFrom_append (dot_not_mem_repr _),
    PyStr.splitFrom_append (dot_not_mem_repr _), PyStr.splitFrom_of_not_mem (dot_not_mem_repr _)]
  rfl

theorem tonumber_repr (n : Nat) : tonumber (Nat.repr n).toList = some n := by
  have hdigits : (Nat.repr n).toList.all Char.isDigit = true := by
    rw [List.all_eq_true, Nat.toList_repr]
    exact fun c hc => Nat.isDigit_of_mem_toDigits (by decide) (by decide) hc
  have hne : (Nat.repr n).toList.isEmpty = false := by
    rw [Nat.toList_repr, List.isEmpty_eq_false_iff]
    exact Nat.toDigits_ne_nil
  rw [tonumber, hdigits, hne, Bool.not_true, Bool.or_false, if_neg Bool.false_ne_true, Nat.toList_repr,
    Nat.ofDigitChars_ten_toDigits]

theorem parseOctet_repr {n : Nat} (h : n < 256) : parseOctet (Nat.repr n).toList = some n := by
  have hall : ∀ n < 256, parseOctet (Nat.toDigits 10 n) = some n := by decide +kernel
  rw [Nat.toList_repr]
  exact hall n h

theorem ipAddress_dotted {address : Nat} (h : address < 4294967296) : ipAddress (dotted address) = some address := by
  rw [ipAddress, splitAt_dotted]
  simp only [parseOctet_repr (Nat.mod_lt _ (by decide : 0 < 256)), Option.bind_eq_bind, Option.bind_some,
    Option.some.injEq]
  omega

/-! ## Subnets -/

/-- A network of `ipaddress`, which refuses host bits that are set. -/
structure Subnet where
  network : Nat
  prefixLength : Nat
  prefixLength_le : prefixLength ≤ 32
  aligned : 2 ^ (32 - prefixLength) ∣ network
  network_lt : network < 4294967296

namespace Subnet

def size (subnet : Subnet) : Nat := 2 ^ (32 - subnet.prefixLength)

/-- `list(subnet.hosts())`. -/
def hosts (subnet : Subnet) : List Nat :=
  if subnet.prefixLength = 32 then [subnet.network]
  else if subnet.prefixLength = 31 then List.range' subnet.network 2
  else List.range' (subnet.network + 1) (subnet.size - 2)

/-- `list(subnet.hosts()).index(ipaddress.ip_address(ip))+2`: `none` is a `ValueError`. -/
def hostIndex (subnet : Subnet) (ip : Text) : Option Nat :=
  (ipAddress ip).bind fun address => (subnet.hosts.idxOf? address).map (· + 2)

end Subnet

/-- An entry of `cluster_instances_ips_index`: the last two octets relative to those of the first address. -/
def terraformIndex (ip firstVcnIp : Text) : Option Int := do
  let ip4 ← (splitAt '.' ip)[3]?.bind tonumber
  let first4 ← (splitAt '.' firstVcnIp)[3]?.bind tonumber
  let ip3 ← (splitAt '.' ip)[2]?.bind tonumber
  let first3 ← (splitAt '.' firstVcnIp)[2]?.bind tonumber
  some (((ip4 : Int) - first4) + 256 * ((ip3 : Int) - first3) + 1)

/-! ## The names -/

/-- What the script reads in the inventory for its DNS records. -/
structure DnsSite where
  queue : Option Text
  instanceType : Text
  zoneName : Text
  privateSubnet : Option Subnet

namespace DnsSite

/-- `instanceName+"."+zone_name`. -/
def instanceDomain (site : DnsSite) (instanceName : Text) : Text := instanceName ++ '.' :: site.zoneName

/-- `queue+"-"+instance_type+"-"+str(index)+"."+zone_name`: `none` is an exception. -/
def slurmDomain (site : DnsSite) (ip : Text) : Option Text := do
  let subnet ← site.privateSubnet
  let index ← subnet.hostIndex ip
  let queue ← site.queue
  some (queue ++ '-' :: site.instanceType ++ '-' :: (Nat.repr index).toList ++ '.' :: site.zoneName)

def addDomains (site : DnsSite) (node : Node) : Option (List Text) := do
  let slurmName ← site.slurmDomain node.ip.toList
  some [slurmName, site.instanceDomain node.displayName.toList]

/-- The address the removal finds for a name: that of the last listed instance with the name. -/
def listedIp (listed : List Node) (instanceName : Text) : Option Text :=
  listed.foldl (fun ip node => if node.displayName.toList = instanceName then some node.ip.toList else ip) none

def removeDomains (site : DnsSite) (listed : List Node) (instanceName : Text) : Option (List Text) :=
  match listedIp listed instanceName with
  | none => some [site.instanceDomain instanceName]
  | some ip => do
      let slurmName ← site.slurmDomain ip
      some [site.instanceDomain instanceName, slurmName]

/-- `get_pending_node_dns_domains` of a record of a pending deletion. -/
def pendingDomains (site : DnsSite) (instanceDisplayName instancePrivateIp : Text) : Option (List Text) :=
  if site.queue.isNone || site.privateSubnet.isNone then none
  else do
    let slurmName ← site.slurmDomain instancePrivateIp
    some [site.instanceDomain instanceDisplayName, slurmName]

end DnsSite

/-! ## The indexes agree -/

namespace Subnet
variable {subnet : Subnet}

theorem hosts_eq (h : subnet.prefixLength ≤ 30) :
    subnet.hosts = List.range' (subnet.network + 1) (subnet.size - 2) := by
  rw [hosts, if_neg (by omega), if_neg (by omega)]

/-- A subnet does not reach beyond the addresses there are. -/
theorem network_add_size_le : subnet.network + subnet.size ≤ 4294967296 := by
  obtain ⟨k, hk⟩ := subnet.aligned
  have hsize : subnet.size * 2 ^ subnet.prefixLength = 4294967296 := by
    rw [size, ← Nat.pow_add, Nat.sub_add_cancel subnet.prefixLength_le]
  have hpos : 0 < subnet.size := Nat.two_pow_pos _
  have hnetwork : subnet.network = subnet.size * k := hk
  have hlt : subnet.size * k < subnet.size * 2 ^ subnet.prefixLength := by
    rw [hsize, ← hnetwork]
    exact subnet.network_lt
  have hk' : k + 1 ≤ 2 ^ subnet.prefixLength := Nat.lt_of_mul_lt_mul_left hlt
  calc subnet.network + subnet.size = subnet.size * (k + 1) := by rw [hnetwork, Nat.mul_succ]
    _ ≤ subnet.size * 2 ^ subnet.prefixLength := Nat.mul_le_mul_left _ hk'
    _ = 4294967296 := hsize

/-- The addresses of a subnet with sixteen bits of prefix or more share their first two octets. -/
theorem div_eq {host : Nat} (h : 16 ≤ subnet.prefixLength) (hlo : subnet.network ≤ host)
    (hhi : host < subnet.network + subnet.size) : host / 65536 = subnet.network / 65536 := by
  obtain ⟨k, hk⟩ := subnet.aligned
  have hsize : subnet.size * 2 ^ (subnet.prefixLength - 16) = 65536 := by
    rw [size, ← Nat.pow_add, show 32 - subnet.prefixLength + (subnet.prefixLength - 16) = 16 by
      have := subnet.prefixLength_le
      omega]
  have hpos : 0 < subnet.size := Nat.two_pow_pos _
  have hnetwork : subnet.network / subnet.size = k := by
    rw [hk]
    exact Nat.mul_div_cancel_left k hpos
  have hhost : host / subnet.size = k := by
    have hnetwork' : subnet.network = subnet.size * k := hk
    refine Nat.div_eq_of_lt_le ?_ ?_
    · rw [Nat.mul_comm, ← hnetwork']
      exact hlo
    · rw [Nat.succ_mul, Nat.mul_comm, ← hnetwork']
      exact hhi
  rw [← hsize, ← Nat.div_div_eq_div_mul, ← Nat.div_div_eq_div_mul, hhost, hnetwork]

theorem mem_hosts (h : subnet.prefixLength ≤ 30) {host : Nat} :
    host ∈ subnet.hosts ↔ subnet.network < host ∧ host + 1 < subnet.network + subnet.size := by
  rw [hosts_eq h, List.mem_range'_1]
  omega

theorem hostIndex_dotted (h : subnet.prefixLength ≤ 30) {host : Nat} (hhost : host ∈ subnet.hosts) :
    subnet.hostIndex (dotted host) = some (host - subnet.network + 1) := by
  obtain ⟨hlo, hhi⟩ := (mem_hosts h).mp hhost
  have hle := subnet.network_add_size_le
  have hidx : subnet.hosts.idxOf? host = some (host - (subnet.network + 1)) := by
    rw [hosts_eq h, List.idxOf?_eq_some_iff]
    have hlength : host - (subnet.network + 1) < (List.range' (subnet.network + 1) (subnet.size - 2)).length := by
      rw [List.length_range']
      omega
    refine ⟨hlength, ?_, fun j hj => ?_⟩
    · rw [List.getElem_range', Nat.one_mul]
      omega
    · rw [List.getElem_range', Nat.one_mul]
      omega
  rw [hostIndex, ipAddress_dotted (by omega), Option.bind_some, hidx, Option.map_some]
  congr 1
  omega

end Subnet

theorem terraformIndex_dotted (host network : Nat) : terraformIndex (dotted host) (dotted network) =
    some (((host % 256 : Nat) : Int) - (network % 256 : Nat) +
      256 * (((host / 256 % 256 : Nat) : Int) - (network / 256 % 256 : Nat)) + 1) := by
  rw [terraformIndex, splitAt_dotted, splitAt_dotted]
  simp only [List.getElem?_cons_succ, List.getElem?_cons_zero, Option.bind_some, tonumber_repr, Option.bind_eq_bind]

theorem terraformIndex_eq_hostIndex {subnet : Subnet} (hlo : 16 ≤ subnet.prefixLength) (hhi : subnet.prefixLength ≤ 30)
    {host : Nat} (hhost : host ∈ subnet.hosts) :
    terraformIndex (dotted host) (dotted subnet.network) = (subnet.hostIndex (dotted host)).map Int.ofNat := by
  obtain ⟨hnetwork, hsize⟩ := (Subnet.mem_hosts hhi).mp hhost
  have hdiv := Subnet.div_eq hlo (by omega) (by omega : host < subnet.network + subnet.size)
  rw [terraformIndex_dotted, Subnet.hostIndex_dotted hhi hhost, Option.map_some, Option.some.injEq, Int.ofNat_eq_natCast]
  omega

/-! ## The names agree -/

namespace DnsSite
variable {site : DnsSite} {subnet : Subnet} {queue : Text}

theorem slurmDomain_eq (hsubnet : site.privateSubnet = some subnet) (hqueue : site.queue = some queue)
    (hlength : subnet.prefixLength ≤ 30) {host : Nat} (hhost : host ∈ subnet.hosts) :
    site.slurmDomain (dotted host) = some (queue ++ '-' :: site.instanceType ++
      '-' :: (Nat.repr (host - subnet.network + 1)).toList ++ '.' :: site.zoneName) := by
  rw [slurmDomain, hsubnet, hqueue]
  simp only [Option.bind_eq_bind, Option.bind_some, Subnet.hostIndex_dotted hlength hhost]

end DnsSite

/-- **One node, one DNS name.** For a host address of a private subnet of sixteen to thirty bits, Terraform and the
script compute the same index, distinct hosts have distinct indexes, and the paths that add a node, remove it and
clean up after its pending deletion name the same two records. -/
theorem one_node_one_name (site : DnsSite) (subnet : Subnet) (hsubnet : site.privateSubnet = some subnet)
    (hlo : 16 ≤ subnet.prefixLength) (hhi : subnet.prefixLength ≤ 30) :
    (∀ host ∈ subnet.hosts, ∃ index, subnet.hostIndex (dotted host) = some index ∧
      terraformIndex (dotted host) (dotted subnet.network) = some (index : Int)) ∧
    (∀ host ∈ subnet.hosts, ∀ other ∈ subnet.hosts,
      subnet.hostIndex (dotted host) = subnet.hostIndex (dotted other) → host = other) ∧
    ∀ queue, site.queue = some queue → ∀ host ∈ subnet.hosts, ∀ (node : Node) (listed : List Node),
      node.ip.toList = dotted host → DnsSite.listedIp listed node.displayName.toList = some node.ip.toList →
      ∃ slurmName, site.addDomains node = some [slurmName, site.instanceDomain node.displayName.toList] ∧
        site.removeDomains listed node.displayName.toList =
          some [site.instanceDomain node.displayName.toList, slurmName] ∧
        site.pendingDomains node.displayName.toList node.ip.toList =
          some [site.instanceDomain node.displayName.toList, slurmName] := by
  refine ⟨fun host hhost => ?_, fun host hhost other hother heq => ?_, ?_⟩
  · refine ⟨_, Subnet.hostIndex_dotted hhi hhost, ?_⟩
    rw [terraformIndex_eq_hostIndex hlo hhi hhost, Subnet.hostIndex_dotted hhi hhost]
    rfl
  · obtain ⟨hhost', -⟩ := (Subnet.mem_hosts hhi).mp hhost
    obtain ⟨hother', -⟩ := (Subnet.mem_hosts hhi).mp hother
    rw [Subnet.hostIndex_dotted hhi hhost, Subnet.hostIndex_dotted hhi hother, Option.some.injEq] at heq
    omega
  · intro queue hqueue host hhost node listed hip hlisted
    obtain ⟨slurmName, hslurm⟩ : ∃ slurmName, site.slurmDomain node.ip.toList = some slurmName := by
      rw [hip]
      exact ⟨_, DnsSite.slurmDomain_eq hsubnet hqueue hhi hhost⟩
    refine ⟨slurmName, ?_, ?_, ?_⟩
    · rw [DnsSite.addDomains, hslurm]
      rfl
    · rw [DnsSite.removeDomains, hlisted]
      dsimp only
      rw [hslurm]
      rfl
    · rw [DnsSite.pendingDomains, hqueue, hsubnet, hslurm]
      rfl

def lastSubnet : Subnet := ⟨167837692, 30, by decide, by decide, by decide⟩

def sampleSite : DnsSite := ⟨some "compute".toList, "hpc".toList, "cluster.local".toList, some lastSubnet⟩

def sampleNode : Node := ⟨"inst-a", "10.0.255.254", "ocid1.instance.a"⟩

theorem one_node_one_name_of_listed : ∃ slurmName,
    sampleSite.addDomains sampleNode = some [slurmName, sampleSite.instanceDomain sampleNode.displayName.toList] ∧
    sampleSite.removeDomains [sampleNode] sampleNode.displayName.toList =
      some [sampleSite.instanceDomain sampleNode.displayName.toList, slurmName] ∧
    sampleSite.pendingDomains sampleNode.displayName.toList sampleNode.ip.toList =
      some [sampleSite.instanceDomain sampleNode.displayName.toList, slurmName] :=
  (one_node_one_name sampleSite lastSubnet rfl (by decide) (by decide)).2.2 "compute".toList rfl 167837694
    (by decide) sampleNode [sampleNode] (by decide +kernel) (by decide +kernel)

end OciHpc.Resize
