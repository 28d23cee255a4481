/-
What is written for an address spells it: a run of zeros is left out at two colons, and the groups around it
stay as they are.

Main statement: an address is read from its text again.
-/
import ScriptedModel.Proofs.Network.Spelling

namespace ScriptedModel.Network

/-! ## Version six -/

namespace Ipv6

variable {gs : List Nat}

theorem spellsGroup_digits {g : Nat} (h : g < UInt16.size) : SpellsGroup g (Numeral.digits 16 g) :=
  ⟨Numeral.length_digits_le (by omega) (Nat.lt_of_lt_of_le h (by decide)), Numeral.value?_digits (by omega) (by omega) g⟩

theorem spellsGroups_joined (quads : Bool) (hne : gs ≠ []) (h : ∀ g ∈ gs, g < UInt16.size) :
    SpellsGroups quads gs (joined gs) := by
  induction gs with
  | nil => exact absurd rfl hne
  | cons g gs ih =>
    have hg := spellsGroup_digits (h g List.mem_cons_self)
    rw [joined, List.map_cons]
    by_cases hgs : gs = []
    · subst hgs
      rw [List.map_nil, List.intercalate_singleton]
      exact .group hg
    · rw [List.intercalate_cons_of_ne_nil (by simpa using hgs), List.append_assoc, List.singleton_append]
      exact .more hg (ih hgs fun k hk => h k (List.mem_cons_of_mem g hk))

theorem spellsAny_joined (quads : Bool) (h : ∀ g ∈ gs, g < UInt16.size) : SpellsAny quads gs (joined gs) := by
  by_cases hgs : gs = []
  · subst hgs
    exact .none
  · exact .some (spellsGroups_joined quads hgs h)

/-! ### Runs of zeros -/

theorem takeWhile_zero (gs : List Nat) : gs.takeWhile (· = 0) = List.replicate (leadingZeros gs) 0 :=
  List.eq_replicate_iff.2 ⟨rfl, fun g hg => of_decide_eq_true (List.all_eq_true.1 List.all_takeWhile g hg)⟩

/-- The longest run stands where it is said to, and nothing but zeros is in it. -/
theorem exists_longestRun (gs : List Nat) : ∃ before after,
    gs = before ++ List.replicate (longestRun gs).2 0 ++ after ∧ before.length = (longestRun gs).1 := by
  induction gs with
  | nil => exact ⟨[], [], rfl, rfl⟩
  | cons g gs ih =>
    rw [longestRun]
    split
    rename_i i n hrun
    split
    · refine ⟨[], (g :: gs).dropWhile (· = 0), ?_, rfl⟩
      rw [List.nil_append, ← takeWhile_zero, List.takeWhile_append_dropWhile]
    · obtain ⟨before, after, heq, hlength⟩ := ih
      rw [hrun] at heq hlength
      refine ⟨g :: before, after, ?_, congrArg (· + 1) hlength⟩
      rw [heq]
      simp only [List.cons_append]

/-! ### Texts -/

theorem exists_of_quad? {a : Ipv6} {os : List Nat} (h : a.quad? = some os) : ∃ g k,
    a.groups = [0, 0, 0, 0, 0, 0xFFFF, g, k] ∧ os = [g / 256, g % 256, k / 256, k % 256] := by
  unfold quad? at h
  split at h
  · rename_i g k hgroups
    cases h
    exact ⟨g, k, hgroups, rfl⟩
  · cases h

/-- The address of version four that two groups make. -/
def quadOf (g k : Nat) (hg : g < UInt16.size) (hk : k < UInt16.size) : Ipv4 where
  octets := [g / 256, g % 256, k / 256, k % 256]
  length_eq := rfl
  octet_lt := by
    simp only [UInt16.size, UInt8.size, List.mem_cons, List.not_mem_nil, or_false] at hg hk ⊢
    omega

theorem groups_quadOf {g k : Nat} (hg : g < UInt16.size) (hk : k < UInt16.size) :
    (quadOf g k hg hk).groups = [g, k] := by
  show [g / 256 * 256 + g % 256, k / 256 * 256 + k % 256] = [g, k]
  rw [Nat.div_add_mod', Nat.div_add_mod']

/-- The text of an address spells its groups. -/
theorem spells_text (a : Ipv6) : Spells a.groups a.text := by
  rw [text]
  split
  · rename_i os hquad
    obtain ⟨g, k, hgroups, rfl⟩ := exists_of_quad? hquad
    have hg : g < UInt16.size := a.group_lt g (by rw [hgroups]; simp)
    have hk : k < UInt16.size := a.group_lt k (by rw [hgroups]; simp)
    have hquad : SpellsGroups true [g, k] (quadOf g k hg hk).text := groups_quadOf hg hk ▸ .quad (quadOf g k hg hk) rfl
    have hffff : SpellsGroup 0xFFFF "ffff".toList := ⟨by decide, by decide⟩
    rw [hgroups]
    exact .gap .none (.some (.more hffff hquad)) (by simp)
  · obtain ⟨before, after, hgroups, hlength⟩ := exists_longestRun a.groups
    split
    rename_i i n hrun
    rw [hrun] at hgroups hlength
    simp only at hgroups hlength
    split
    · rename_i hn
      have hcount : before.length + n + after.length = 8 := by
        rw [← a.length_eq, hgroups, List.length_append, List.length_append, List.length_replicate]
      have htake : a.groups.take i = before := by
        rw [hgroups, List.append_assoc, ← hlength, List.take_left]
      have hdrop : a.groups.drop (i + n) = after := by
        have hboth : (before ++ List.replicate n 0).length = i + n := by
          rw [List.length_append, List.length_replicate, hlength]
        rw [hgroups, ← hboth, List.drop_left]
      have hzeros : n = 8 - before.length - after.length := by omega
      have hlt : ∀ g ∈ before ++ List.replicate n 0 ++ after, g < UInt16.size := hgroups ▸ a.group_lt
      have hfront : SpellsAny false before (joined before) := spellsAny_joined false fun g hg => hlt g (by simp [hg])
      have hback : SpellsAny true after (joined after) := spellsAny_joined true fun g hg => hlt g (by simp [hg])
      have hspells := Spells.gap hfront hback (by omega)
      rw [htake, hdrop, hgroups, hzeros, List.append_assoc (joined before)]
      exact hspells
    · exact .full (spellsGroups_joined true (fun hnil => by simpa [hnil] using a.length_eq) a.group_lt) a.length_eq

end Ipv6

/-! ## Hosts and ports -/

/-- A host whose scope is a number of 32 bits. -/
def Host.InBounds : Host → Prop
  | .v4 _ => True
  | .v6 _ n => n < scopeBound

theorem Host.Spells.inBounds {host : Host} {cs : List Char} (h : host.Spells cs) : host.InBounds := by
  cases h with
  | v4 => trivial
  | v6 => exact (by decide : 0 < UInt32.size)
  | v6Scoped h hscope hbound => exact hbound

theorem Host.spells_text {host : Host} (h : host.InBounds) : host.Spells host.text := by
  cases host with
  | v4 a => exact .v4 a
  | v6 a n =>
    cases n with
    | zero => exact .v6 a.spells_text
    | succ n =>
      have hspells := Host.Spells.v6Scoped a.spells_text (Numeral.value?_digits (by omega) (by omega) (n + 1)) h
      rw [List.append_assoc] at hspells
      exact hspells

theorem SocketAddress.spells_text {a : SocketAddress} (h : a.host.InBounds) : a.Spells a.text.toList := by
  rw [text, String.toList_ofList]
  exact .mk (Host.spells_text h) (Numeral.value?_digits (by omega) (by omega) a.port.toNat)

/-- An address is read from its text again. -/
theorem SocketAddress.ofText?_text {a : SocketAddress} (h : a.host.InBounds) : ofText? a.text.toList = some a :=
  ofText?_eq_some_iff.2 (spells_text h)

end ScriptedModel.Network
