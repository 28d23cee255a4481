/-
The address that a configuration listens on. Host and port are joined to one text before it is read, yet no
host reaches into the port: whatever is in it, the text is cut where the two were joined.

Main statement: the host alone says whether there is an address and at which host, and the port is the
configured one; printed, the address is read again; a server is made just of a configuration that passes its
checks and has an address, and listens there.
-/
import ScriptedModel.Config.Basic
import ScriptedModel.Proofs.Network.Printing

namespace ScriptedModel.Configuration

open Network (Host SocketAddress)

variable {c : Configuration} {a : SocketAddress}

theorem toList_addressText (c : Configuration) :
    c.addressText.toList = c.listening.host.toList ++ ':' :: Numeral.digits 10 c.listening.port.toNat := by
  simp only [addressText, Numeral.decimal, String.toList_append, String.toList_ofList, List.append_assoc]
  rfl

theorem value?_port (c : Configuration) :
    Numeral.value? 10 (Numeral.digits 10 c.listening.port.toNat) = some c.listening.port.toNat :=
  Numeral.value?_digits (by omega) (by omega) _

/-- The last colon is the one that was put between host and port. -/
theorem ofText?_addressText (c : Configuration) : SocketAddress.ofText? c.addressText.toList =
    (Host.ofText? c.listening.host.toList).map (⟨·, c.listening.port⟩) := by
  rw [toList_addressText, SocketAddress.ofText?,
    Split.atLast?_append (SocketAddress.colon_notMem_of_value? c.value?_port)]
  simp only [Option.bind_eq_bind, Option.bind_some, SocketAddress.port?_eq_some_iff.2 c.value?_port]
  cases Host.ofText? c.listening.host.toList <;> rfl

theorem address_eq_ok_iff_ofText? : c.address = .ok a ↔ SocketAddress.ofText? c.addressText.toList = some a := by
  unfold address
  split
  · rename_i heq
    rw [heq, Except.ok.injEq, Option.some.injEq]
  · rename_i heq
    rw [heq]
    exact ⟨nofun, nofun⟩

theorem address_eq_ok_iff :
    c.address = .ok a ↔ a.host.Spells c.listening.host.toList ∧ a.port = c.listening.port := by
  rw [address_eq_ok_iff_ofText?, ofText?_addressText, Option.map_eq_some_iff]
  constructor
  · rintro ⟨host, hhost, rfl⟩
    exact ⟨Host.ofText?_eq_some_iff.1 hhost, rfl⟩
  · rintro ⟨hhost, hport⟩
    exact ⟨a.host, Host.ofText?_eq_some_iff.2 hhost, hport ▸ rfl⟩

theorem serverAddress_eq_ok_iff : c.serverAddress = .ok a ↔ c.check = .ok () ∧ c.address = .ok a := by
  rw [serverAddress]
  cases c.check with
  | ok => exact ⟨fun h => ⟨rfl, h⟩, fun h => h.2⟩
  | error f => exact ⟨nofun, fun h => nomatch h.1⟩

/-- How a configuration comes to its address. -/
structure Binds (c : Configuration) : Prop where
  /-- The address is one that the text of host and port spells. -/
  spells : ∀ a, c.address = .ok a ↔ a.Spells c.addressText.toList
  /-- Its host is the one that the text of the host spells, and its port is the configured one. -/
  spells_host : ∀ a, c.address = .ok a ↔ a.host.Spells c.listening.host.toList ∧ a.port = c.listening.port
  port_eq : ∀ a, c.address = .ok a → a.port = c.listening.port
  /-- With the same host, whatever the port and all else, there is an address just if there is one here, at
  the same host. -/
  host_alone : ∀ c' : Configuration, c'.listening.host = c.listening.host →
    ∀ a', c'.address = .ok a' ↔ ∃ a, c.address = .ok a ∧ a' = ⟨a.host, c'.listening.port⟩
  /-- Printed, the address is read again. -/
  reads_back : ∀ a, c.address = .ok a → SocketAddress.ofText? a.text.toList = some a
  server : ∀ a, c.serverAddress = .ok a ↔ c.check = .ok () ∧ c.address = .ok a

/-- The host text cannot influence the port. -/
theorem address_binds (c : Configuration) : c.Binds where
  spells _ := address_eq_ok_iff_ofText?.trans SocketAddress.ofText?_eq_some_iff
  spells_host _ := address_eq_ok_iff
  port_eq _ h := (address_eq_ok_iff.1 h).2
  host_alone c' hhost a' := by
    constructor
    · intro h
      obtain ⟨hspells, hport⟩ := address_eq_ok_iff.1 h
      exact ⟨⟨a'.host, c.listening.port⟩, address_eq_ok_iff.2 ⟨hhost ▸ hspells, rfl⟩, hport ▸ rfl⟩
    · rintro ⟨a, h, rfl⟩
      exact address_eq_ok_iff.2 ⟨hhost ▸ (address_eq_ok_iff.1 h).1, rfl⟩
  reads_back _ h := SocketAddress.ofText?_text (address_eq_ok_iff.1 h).1.inBounds
  server _ := serverAddress_eq_ok_iff

/-- Colons of the host stay in the host, also where they would spell a port. -/
example : (Configuration.mk ⟨"[::1%7]", 80, true⟩ .default []).address.toOption.map (·.text) = some "[::1%7]:80" ∧
    (Configuration.mk ⟨"127.0.0.1:9", 80, true⟩ .default []).address.toOption = none := by
  decide +kernel

end ScriptedModel.Configuration
