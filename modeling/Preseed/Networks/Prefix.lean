import Mathlib.Data.Finset.Max
import Mathlib.Tactic.Linarith

/-!
# Prefix networks

Networks of two address families as blocks of equal size, and lists of networks
in which nothing overlaps and no two halves of a network stand next to each
other. Such a list covers its family only if it has the whole family as a
network.
-/

namespace Preseed.Networks

open Nat

/-- The address families. -/
inductive Version
  | v4 | v6
  deriving DecidableEq

def Version.bits : Version → ℕ
  | v4 => 32
  | v6 => 128

theorem whole_v4 : 32 ≤ Version.v4.bits := le_rfl

/-- The block with number `index` of the blocks with a prefix of `prefixLen` bits. -/
structure Network where
  version : Version
  prefixLen : ℕ
  index : ℕ
  prefixLen_le : prefixLen ≤ version.bits
  index_lt : index < 2 ^ prefixLen
  deriving DecidableEq

namespace Network

/-- The binary logarithm of a network's size. -/
def hostBits (net : Network) : ℕ := net.version.bits - net.prefixLen

/-- An address, as a number of the network's family, is in the network. -/
def contains (net : Network) (address : ℕ) : Prop := address / 2 ^ net.hostBits = net.index

instance (net : Network) (address : ℕ) : Decidable (net.contains address) :=
  inferInstanceAs (Decidable (address / 2 ^ net.hostBits = net.index))

/-- The lowest address. -/
def base (net : Network) : ℕ := net.index * 2 ^ net.hostBits

theorem contains_base (net : Network) : net.contains net.base :=
  Nat.mul_div_cancel _ (Nat.two_pow_pos _)

/-- The two halves of a network. -/
def Siblings (left right : Network) : Prop :=
  left.version = right.version ∧ left.prefixLen = right.prefixLen ∧ left.index ≠ right.index ∧
    left.index / 2 = right.index / 2

/-- The number of a block's other half. -/
def siblingIndex (net : Network) : ℕ := if net.index % 2 = 0 then net.index + 1 else net.index - 1

theorem siblingIndex_spec (net : Network) :
    net.siblingIndex ≠ net.index ∧ net.siblingIndex / 2 = net.index / 2 := by
  unfold siblingIndex
  split <;> omega

theorem siblingIndex_lt {net : Network} (h : 0 < net.prefixLen) :
    net.siblingIndex < 2 ^ net.prefixLen := by
  obtain ⟨k, hk⟩ := Nat.exists_eq_add_of_lt h
  have hlt := net.index_lt
  have hpow : 2 ^ net.prefixLen = 2 * 2 ^ k := by
    rw [hk, zero_add, pow_succ, mul_comm]
  unfold siblingIndex
  split <;> omega

/-- A larger block has both halves of a smaller one, or none. -/
theorem contains_of_sibling {large small : Network} (hversion : large.version = small.version)
    (hlt : large.prefixLen < small.prefixLen)
    (h : large.contains (small.siblingIndex * 2 ^ small.hostBits)) : large.contains small.base := by
  have hle := small.prefixLen_le
  obtain ⟨e, he⟩ : ∃ e, large.hostBits = small.hostBits + (e + 1) := by
    refine ⟨small.prefixLen - large.prefixLen - 1, ?_⟩
    unfold hostBits
    rw [hversion]
    omega
  have hblock : ∀ index : ℕ,
      index * 2 ^ small.hostBits / 2 ^ large.hostBits = index / 2 / 2 ^ e := by
    intro index
    rw [he, Nat.pow_add, ← Nat.div_div_eq_div_mul, Nat.mul_div_cancel _ (Nat.two_pow_pos _),
      Nat.pow_succ, Nat.mul_comm, Nat.div_div_eq_div_mul]
  unfold contains base at *
  rw [hblock] at h ⊢
  rw [← h, small.siblingIndex_spec.2]

end Network

/-- A list of networks is covered by another list in which no two networks share an
address and none is the other half of another. -/
structure Collapsed (networks collapsed : List Network) : Prop where
  covers : ∀ address, (∃ net ∈ collapsed, net.contains address) ↔
    ∃ net ∈ networks, net.contains address
  version : ∀ net ∈ collapsed, ∃ other ∈ networks, net.version = other.version
  separate : ∀ left ∈ collapsed, ∀ right ∈ collapsed, left ≠ right →
    ∀ address, ¬(left.contains address ∧ right.contains address)
  merged : ∀ left ∈ collapsed, ∀ right ∈ collapsed, ¬left.Siblings right

/-- Networks which cover a family are collapsed to the whole family. -/
theorem Collapsed.exists_root {version : Version} {networks collapsed : List Network}
    (h : Collapsed networks collapsed) (hversion : ∀ net ∈ networks, net.version = version)
    (hcover : ∀ address < 2 ^ version.bits, ∃ net ∈ networks, net.contains address) :
    ∃ net ∈ collapsed, net.prefixLen = 0 := by
  have hfamily : ∀ net ∈ collapsed, net.version = version := by
    intro net hnet
    obtain ⟨other, hother, hsame⟩ := h.version net hnet
    rw [hsame, hversion other hother]
  have hcovered : ∀ address < 2 ^ version.bits, ∃ net ∈ collapsed, net.contains address :=
    fun address hlt => (h.covers address).mpr (hcover address hlt)
  obtain ⟨first, hfirst, -⟩ := hcovered 0 (Nat.two_pow_pos _)
  obtain ⟨net, hnet, hlongest⟩ := collapsed.toFinset.exists_max_image Network.prefixLen
    ⟨first, List.mem_toFinset.mpr hfirst⟩
  rw [List.mem_toFinset] at hnet
  refine ⟨net, hnet, ?_⟩
  by_contra hpositive
  -- the other half of a longest prefix is covered by no network
  have hlt := Network.siblingIndex_lt (pos_of_ne_zero hpositive)
  have hbits : net.prefixLen + net.hostBits = version.bits := by
    have hle := net.prefixLen_le
    unfold Network.hostBits
    rw [hfamily net hnet] at hle ⊢
    omega
  have haddress : net.siblingIndex * 2 ^ net.hostBits < 2 ^ version.bits := by
    rw [← hbits, pow_add]
    exact Nat.mul_lt_mul_of_pos_right hlt (Nat.two_pow_pos _)
  obtain ⟨other, hother, hcontains⟩ := hcovered _ haddress
  have hle := hlongest other (List.mem_toFinset.mpr hother)
  have hsame : other.version = net.version := (hfamily other hother).trans (hfamily net hnet).symm
  rcases lt_or_eq_of_le hle with hshorter | hequal
  · have hboth := Network.contains_of_sibling hsame hshorter hcontains
    refine h.separate other hother net hnet (fun heq => ?_) net.base ⟨hboth, net.contains_base⟩
    rw [heq] at hshorter
    exact absurd hshorter (lt_irrefl _)
  · have hindex : other.index = net.siblingIndex := by
      have hhost : other.hostBits = net.hostBits := by
        unfold Network.hostBits
        rw [hsame, hequal]
      unfold Network.contains at hcontains
      rw [hhost, Nat.mul_div_cancel _ (Nat.two_pow_pos _)] at hcontains
      exact hcontains.symm
    refine h.merged other hother net hnet ⟨hsame, hequal, ?_, ?_⟩
    · rw [hindex]
      exact net.siblingIndex_spec.1
    · rw [hindex]
      exact net.siblingIndex_spec.2

theorem Collapsed.nil : Collapsed [] [] where
  covers _ := Iff.rfl
  version _ h := by cases h
  separate _ h := by cases h
  merged _ h := by cases h

/-- A single network is collapsed. -/
theorem Collapsed.singleton (net : Network) : Collapsed [net] [net] where
  covers _ := Iff.rfl
  version other h := ⟨other, h, rfl⟩
  separate left hleft right hright hne := by
    obtain rfl := List.mem_singleton.mp hleft
    obtain rfl := List.mem_singleton.mp hright
    exact absurd rfl hne
  merged left hleft right hright h := by
    obtain rfl := List.mem_singleton.mp hleft
    obtain rfl := List.mem_singleton.mp hright
    exact h.2.2.1 rfl

end Preseed.Networks
