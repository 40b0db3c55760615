import AccountVault.Proofs.Desk.Run

/-!
# Records keep accounts

Whatever is written as a record is read back as it was, and whatever account a run can come to is
rebuilt from its record with all that a record keeps of it (`record_keeps_account`).
-/

namespace AccountVault

/-- After any run the tables of an account hold set cells only, and its services are bound under their
names. -/
theorem Contents.Opens.tidy_run {c : Contents} {v : Vault} (h : c.Opens v) (as : List Action)
    {id : AccountId} {a : Account}
    (ha : ((System.start v c).run as).vault.account? id = some a) : a.Tidy :=
  ((h.sound id as).logs a ha).tidy

/-- Every record is read back from its bytes.  And an account that a run can come to, written as a record
and read again, is rebuilt as a saved one without pending changes, with the provider, the display name,
the switch, the settings and the services that it had, each service under its own name. -/
theorem record_keeps_account :
    (∀ r : Record, Record.decode r.encode = .ok r) ∧
    ∀ {c : Contents} {options : Options} {catalog : Catalog} {v : Vault},
      c.opened options catalog = .ok v → ∀ (as : List Action) (id : AccountId) (a : Account),
      ((System.start v c).run as).vault.account? id = some a →
      ∃ r b, Record.decode (Record.ofAccount id a).encode = .ok r ∧ r.toAccount = .ok b ∧
        b.provider = a.provider ∧ b.displayName = a.displayName ∧ b.enabled = a.enabled ∧
        b.settings = a.settings ∧ b.bindings = a.bindings ∧
        (∀ (name : String) (binding : Binding), b.bindings[name]? = some binding →
          binding.name = name) ∧
        b.state = .saved ∧ b.isDirty = false ∧ b.changes.pendingKeys = [] ∧
        b.changes.pendingServices = [] := by
  refine ⟨Record.decode_encode, fun hv as id a ha => ?_⟩
  have htidy := (Contents.opens_of_opened hv).tidy_run as ha
  have hnames : ∀ (name : String) (binding : Binding), a.settled.bindings[name]? = some binding →
      binding.name = name := fun name binding hb => (htidy.bindings name binding hb).1
  exact ⟨Record.ofAccount id a, a.settled, Record.decode_encode _,
    Record.toAccount_ofAccount htidy id, rfl, rfl, rfl, rfl, rfl, hnames, rfl, rfl, rfl, rfl⟩

/-- A new account with a setting under a quote, a service with a 64-bit setting, and one that is bound
and nothing more. -/
theorem record_keeps_account_of_new :
    let as : List Action := [.create "acme",
      .edit 1 (.write .account "color" (.text "\"r\\ed\u0001") (some .account)),
      .edit 1 (.write (.service "mail") "port" (.integer64 (-9223372036854775808)) (some .template)),
      .edit 1 (.setServiceEnabled "mail" true), .edit 1 (.bind "sync")]
    ∃ a r b, ((System.start {} ∅).run as).vault.account? 1 = some a ∧
      a.state = .unsaved ∧ a.isDirty = true ∧
      Record.decode (Record.ofAccount 1 a).encode = .ok r ∧ r.toAccount = .ok b ∧
      b.settings = a.settings ∧ b.bindings = a.bindings ∧ b.state = .saved ∧ b.isDirty = false := by
  intro as
  have hv := Contents.opened_empty {} {} rfl
  have ha : ((System.start {} ∅).run as).vault.account? 1 = some _ := rfl
  obtain ⟨r, b, hr, hb, -, -, -, hsettings, hbindings, -, hstate, hdirty, -, -⟩ :=
    record_keeps_account.2 hv as 1 _ ha
  exact ⟨_, r, b, ha, rfl, rfl, hr, hb, hsettings, hbindings, hstate, hdirty⟩

end AccountVault
