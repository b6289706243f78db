import OpenDweb.Server.AdminUpdates

/-!
# OpenDweb — admin edits in some order

The edits of the admin API, as changes of one entry, and the runs in which they come out so.

* **`AdminCall.editOwner`**, **`AdminCall.editVisitor`** — what a call that nothing comes between
  makes of an entry: the fields it names, and no others.
* **`serve_owner`**, **`serve_visitor`** — the handlers do just that.
* **`handle_upToDate`** — and still do on an older snapshot, where it is `Unaltered`.
-/

namespace Dweb

open List Option Std.ExtTreeMap

namespace Admin

open Std (ExtTreeMap LawfulEqCmp)

/-! ## Edits of one entry -/

/-- The metadata of `body` over what is there. -/
def MetaBody.merged (body : MetaBody) (aliasName note : Option String) :
    Option String × Option String :=
  (mergeMetaField body.aliasName aliasName, mergeMetaField body.note note)

/-- The expiry that a renewal counted from `base` sets, where it is not refused. -/
def RenewBody.expiry (body : RenewBody) (base : UInt64) : Option (Option UInt64) :=
  if body.expiresInDays.isSome == body.permanent.isSome then none
  else
    match body.expiresInDays with
    | some days => ((expiresAtFromDays days base).toOption).map some
    | none => some none

/-- What a call that lands makes of the entry of `key`. -/
def AdminCall.editOwner (key : OwnerKey) (m : EntryMeta) (c : AdminCall) : EntryMeta :=
  match c.request, c.landing with
  | .patchOwner fabricHex rootHex (.ok body), .ok =>
    if addressedOwner fabricHex rootHex = some key ∧ checkMetaBody body = .ok () then
      { m with
        aliasName := (body.merged m.aliasName m.note).1
        note := (body.merged m.aliasName m.note).2 }
    else m
  | .renewOwner fabricHex rootHex (.ok body), .ok =>
    match body.expiry (leaseBase m.expiresAt c.now) with
    | some expiresAt =>
      if addressedOwner fabricHex rootHex = some key then { m with expiresAt } else m
    | none => m
  | _, _ => m

theorem AdminCall.editOwner_patch (key : OwnerKey) (m : EntryMeta) (fabricHex rootHex : String)
    (body : MetaBody) (now ts : UInt64) :
    AdminCall.editOwner key m ⟨.patchOwner fabricHex rootHex (.ok body), now, ts, .ok⟩
      = if addressedOwner fabricHex rootHex = some key ∧ checkMetaBody body = .ok () then
          { m with
            aliasName := (body.merged m.aliasName m.note).1
            note := (body.merged m.aliasName m.note).2 }
        else m := rfl

theorem AdminCall.editOwner_renew (key : OwnerKey) (m : EntryMeta) (fabricHex rootHex : String)
    (body : RenewBody) (now ts : UInt64) :
    AdminCall.editOwner key m ⟨.renewOwner fabricHex rootHex (.ok body), now, ts, .ok⟩
      = match body.expiry (leaseBase m.expiresAt now) with
        | some expiresAt =>
          if addressedOwner fabricHex rootHex = some key then { m with expiresAt } else m
        | none => m := rfl

/-- What a call that lands makes of the entry of the visitor `key`. -/
def AdminCall.editVisitor (key : BytesN 32) (v : VisitorEntry) (c : AdminCall) : VisitorEntry :=
  match c.request, c.landing with
  | .patchVisitor endpointHex (.ok body), .ok =>
    if addressedVisitor endpointHex = some key ∧ checkMetaBody body = .ok () then
      { endpointId := key
        grantedAt := c.ts
        expiresAt := v.expiresAt
        aliasName := (body.merged v.aliasName v.note).1
        note := (body.merged v.aliasName v.note).2 }
    else v
  | _, _ => v

theorem AdminCall.editVisitor_patch (key : BytesN 32) (v : VisitorEntry) (endpointHex : String)
    (body : MetaBody) (now ts : UInt64) :
    AdminCall.editVisitor key v ⟨.patchVisitor endpointHex (.ok body), now, ts, .ok⟩
      = if addressedVisitor endpointHex = some key ∧ checkMetaBody body = .ok () then
          { endpointId := key
            grantedAt := ts
            expiresAt := v.expiresAt
            aliasName := (body.merged v.aliasName v.note).1
            note := (body.merged v.aliasName v.note).2 }
        else v := rfl

/-! ## What the handlers work out -/

theorem mergeMetaField_congr {incoming a b : Option String} (h : incoming.isNone = true → a = b) :
    mergeMetaField incoming a = mergeMetaField incoming b := by
  cases incoming with
  | some s => rfl
  | none => exact h rfl

theorem MetaBody.merged_congr {body : MetaBody} {aliasName note aliasName' note' : Option String}
    (h : body.leftOut aliasName note = body.leftOut aliasName' note') :
    body.merged aliasName note = body.merged aliasName' note' := by
  obtain ⟨halias, hnote⟩ := Prod.mk.injEq .. ▸ h
  refine congrArg₂ Prod.mk ?_ ?_
  · exact mergeMetaField_congr fun hnone => by rwa [if_pos hnone, if_pos hnone] at halias
  · exact mergeMetaField_congr fun hnone => by rwa [if_pos hnone, if_pos hnone] at hnote

theorem addressedOwner_eq_some {fabricHex rootHex : String} {key : OwnerKey} :
    addressedOwner fabricHex rootHex = some key
      ↔ parseOwnerHex fabricHex = .ok key.fabricId ∧ parseOwnerHex rootHex = .ok key.root := by
  unfold addressedOwner
  constructor
  · intro h
    split at h
    · next fabricId root hf hr =>
      cases h
      exact ⟨hf, hr⟩
    · cases h
  · intro ⟨hf, hr⟩
    rw [hf, hr]

theorem toOption_eq_some {ε α : Type*} {x : Except ε α} {a : α} :
    x.toOption = some a ↔ x = .ok a := by
  cases x with
  | error e => exact iff_of_false nofun nofun
  | ok b => exact ⟨fun h => by cases h; rfl, fun h => by cases h; rfl⟩

theorem addressedVisitor_eq_some {endpointHex : String} {key : BytesN 32} :
    addressedVisitor endpointHex = some key ↔ parseOwnerHex endpointHex = .ok key :=
  toOption_eq_some

theorem ownerMetadata_ok {fabricHex rootHex : String} {body : MetaBody} {key : OwnerKey}
    (hcheck : checkMetaBody body = .ok ()) (haddr : addressedOwner fabricHex rootHex = some key)
    (seen : RegistrySnapshot) :
    ownerMetadata seen fabricHex rootHex (.ok body)
      = match seen.active[key]? with
        | none => .error (noOwner key)
        | some m => .ok (key, body.merged m.aliasName m.note) := by
  obtain ⟨hf, hr⟩ := addressedOwner_eq_some.mp haddr
  simp only [ownerMetadata, Except.mapError, bind, Except.bind, hcheck, parseHexId, hf, hr]
  rfl

theorem ownerMetadata_error (fabricHex rootHex : String) (body : Except String MetaBody)
    (h : ∀ b key, body = .ok b → ¬(addressedOwner fabricHex rootHex = some key
      ∧ checkMetaBody b = .ok ())) :
    ∃ e, ∀ seen, ownerMetadata seen fabricHex rootHex body = .error e := by
  cases body with
  | error e => exact ⟨_, fun _ => rfl⟩
  | ok b =>
    cases hcheck : checkMetaBody b with
    | error e =>
      refine ⟨e, fun seen => ?_⟩
      simp only [ownerMetadata, Except.mapError, bind, Except.bind, hcheck]
    | ok u =>
      cases hf : parseOwnerHex fabricHex with
      | error e =>
        refine ⟨.invalidId "fabric_id" e, fun seen => ?_⟩
        simp only [ownerMetadata, Except.mapError, bind, Except.bind, hcheck, parseHexId, hf]
      | ok fabricId =>
        cases hr : parseOwnerHex rootHex with
        | error e =>
          refine ⟨.invalidId "root" e, fun seen => ?_⟩
          simp only [ownerMetadata, Except.mapError, bind, Except.bind, hcheck, parseHexId, hf,
            hr]
        | ok root => exact absurd ⟨addressedOwner_eq_some.mpr ⟨hf, hr⟩, hcheck⟩ (h b ⟨_, _⟩ rfl)

theorem visitorMetadata_ok {endpointHex : String} {body : MetaBody} {key : BytesN 32}
    (hcheck : checkMetaBody body = .ok ()) (haddr : addressedVisitor endpointHex = some key)
    (seen : ExtTreeMap (BytesN 32) VisitorEntry) :
    visitorMetadata seen endpointHex (.ok body)
      = match seen[key]? with
        | none => .error (noVisitor key)
        | some (v : VisitorEntry) => .ok (key, body.merged v.aliasName v.note) := by
  have hid := addressedVisitor_eq_some.mp haddr
  simp only [visitorMetadata, Except.mapError, bind, Except.bind, hcheck, parseHexId, hid]
  rfl

theorem visitorMetadata_error (endpointHex : String) (body : Except String MetaBody)
    (h : ∀ b key, body = .ok b → ¬(addressedVisitor endpointHex = some key
      ∧ checkMetaBody b = .ok ())) :
    ∃ e, ∀ seen, visitorMetadata seen endpointHex body = .error e := by
  cases body with
  | error e => exact ⟨_, fun _ => rfl⟩
  | ok b =>
    cases hcheck : checkMetaBody b with
    | error e =>
      refine ⟨e, fun seen => ?_⟩
      simp only [visitorMetadata, Except.mapError, bind, Except.bind, hcheck]
    | ok u =>
      cases hid : parseOwnerHex endpointHex with
      | error e =>
        refine ⟨.invalidId "endpoint_id" e, fun seen => ?_⟩
        simp only [visitorMetadata, Except.mapError, bind, Except.bind, hcheck, parseHexId, hid]
      | ok id => exact absurd ⟨addressedVisitor_eq_some.mpr hid, hcheck⟩ (h b id rfl)

theorem ownerExpiry_eq_ok {seen : RegistrySnapshot} {fabricHex rootHex : String}
    {body : Except String RenewBody} {now : UInt64} {key : OwnerKey} {expiresAt : Option UInt64} :
    ownerExpiry seen fabricHex rootHex body now = .ok (key, expiresAt)
      ↔ ∃ b, body = .ok b ∧ addressedOwner fabricHex rootHex = some key
          ∧ b.expiry (renewBase seen key now) = some expiresAt := by
  unfold ownerExpiry
  rw [bind_eq_ok]
  constructor
  · intro ⟨b, hbody, h⟩
    refine ⟨b, mapError_eq_ok.mp hbody, ?_⟩
    obtain ⟨hone, h⟩ := ite_throw_eq_ok.mp h
    obtain ⟨fabricId, hf, h⟩ := bind_eq_ok.mp h
    obtain ⟨root, hr, h⟩ := bind_eq_ok.mp h
    have hkey : addressedOwner fabricHex rootHex = some ⟨fabricId, root⟩ :=
      addressedOwner_eq_some.mpr ⟨mapError_eq_ok.mp hf, mapError_eq_ok.mp hr⟩
    rw [RenewBody.expiry, if_neg hone]
    cases hdays : b.expiresInDays with
    | none =>
      rw [hdays] at h
      cases h
      exact ⟨hkey, rfl⟩
    | some days =>
      rw [hdays] at h
      obtain ⟨at', hat, h⟩ := bind_eq_ok.mp h
      cases h
      refine ⟨hkey, ?_⟩
      simp only [hat]
      rfl
  · intro ⟨b, hbody, hkey, hexpiry⟩
    obtain ⟨hf, hr⟩ := addressedOwner_eq_some.mp hkey
    refine ⟨b, mapError_eq_ok.mpr hbody, ?_⟩
    rw [RenewBody.expiry] at hexpiry
    split at hexpiry
    · cases hexpiry
    · next hone =>
      refine ite_throw_eq_ok.mpr ⟨hone, bind_eq_ok.mpr ⟨_, mapError_eq_ok.mpr hf, ?_⟩⟩
      refine bind_eq_ok.mpr ⟨_, mapError_eq_ok.mpr hr, ?_⟩
      cases hdays : b.expiresInDays with
      | none =>
        rw [hdays] at hexpiry
        cases hexpiry
        rfl
      | some days =>
        rw [hdays] at hexpiry
        obtain ⟨at', hat, rfl⟩ := map_eq_some_iff.mp hexpiry
        refine bind_eq_ok.mpr ⟨at', ?_, rfl⟩
        exact toOption_eq_some.mp hat

/-! ## A call that nothing comes between -/

theorem upsertLocked_entry (s : OwnerRegistry) (key key' : OwnerKey)
    (expiresAt : Option (Option UInt64)) (aliasName note : Option (Option String)) (ts : UInt64)
    (o : Landing) {m : EntryMeta} (hm : s.current.active[key]? = some m) :
    (s.upsertLocked key.fabricId key.root expiresAt aliasName note none ts
        o).1.current.active[key']?
      = if o = .ok ∧ key = key' then
          some {
            registeredAt := m.registeredAt
            expiresAt := expiresAt.getD m.expiresAt
            aliasName := aliasName.getD m.aliasName
            note := note.getD m.note }
        else s.current.active[key']? := by
  cases o with
  | failed e kept => rfl
  | ok =>
    have hkey : s.current.active[(⟨key.fabricId, key.root⟩ : OwnerKey)]? = some m := hm
    simp only [OwnerRegistry.upsertLocked, Landing.result, OwnerRegistry.upsertRecord, hkey,
      ExtTreeMap.getElem?_insert, compare_eq_iff_eq, true_and, map_some, getD_some]

theorem updateMetadata_entry (s : OwnerRegistry) (key key' : OwnerKey)
    (texts : Option String × Option String) (ts : UInt64) (o : Landing) {m : EntryMeta}
    (hm : s.current.active[key]? = some m) :
    (s.updateMetadata key.fabricId key.root texts.1 texts.2 ts o).1.current.active[key']?
      = if o = .ok ∧ key = key' then some { m with aliasName := texts.1, note := texts.2 }
        else s.current.active[key']? := by
  have hin : s.current.active.contains (⟨key.fabricId, key.root⟩ : OwnerKey) = true := by
    rw [contains_eq_isSome_getElem?]
    exact isSome_iff_exists.mpr ⟨m, hm⟩
  rw [OwnerRegistry.updateMetadata, if_pos hin]
  exact upsertLocked_entry s key key' none (some texts.1) (some texts.2) ts o hm

theorem renew_entry (s : OwnerRegistry) (key key' : OwnerKey) (expiresAt : Option UInt64)
    (ts : UInt64) (o : Landing) :
    (s.renew key.fabricId key.root expiresAt ts o).1.current.active[key']?
      = if o = .ok ∧ key = key' then
          (s.current.active[key']?).map fun m => { m with expiresAt }
        else s.current.active[key']? := by
  rw [OwnerRegistry.renew]
  cases hm : s.current.active[key]? with
  | none =>
    have hout : ¬s.current.active.contains (⟨key.fabricId, key.root⟩ : OwnerKey) = true := by
      rw [contains_eq_isSome_getElem?]
      show ¬(s.current.active[key]?).isSome = true
      rw [hm]
      decide
    rw [if_neg hout]
    split
    · next hok => rw [← hok.2, hm, map_none]
    · rfl
  | some m =>
    have hin : s.current.active.contains (⟨key.fabricId, key.root⟩ : OwnerKey) = true := by
      rw [contains_eq_isSome_getElem?]
      exact isSome_iff_exists.mpr ⟨m, hm⟩
    rw [if_pos hin]
    refine (upsertLocked_entry s key key' (some expiresAt) none none ts o hm).trans ?_
    split
    · next hok => rw [← hok.2, hm, map_some]; rfl
    · rfl

theorem visitorUpdate_entry (s : VisitorRegistry) (key key' : BytesN 32)
    (texts : Option String × Option String) (ts : UInt64) (o : Landing) {v : VisitorEntry}
    (hv : s.active[key]? = some v) :
    (s.updateMetadata key texts.1 texts.2 ts o).1.active[key']?
      = if o = .ok ∧ key = key' then
          some {
            endpointId := key'
            grantedAt := ts
            expiresAt := v.expiresAt
            aliasName := texts.1
            note := texts.2 }
        else s.active[key']? := by
  rw [VisitorRegistry.updateMetadata, hv]
  cases o with
  | failed e kept => rfl
  | ok =>
    simp only [Landing.result, ExtTreeMap.getElem?_insert, compare_eq_iff_eq, true_and]
    split
    · next hkey => rw [hkey]
    · rfl

theorem map_eq_self {α : Type*} {x : Option α} {f : α → α} (h : ∀ a, x = some a → f a = a) :
    x = x.map f := by
  cases x with
  | none => rfl
  | some a => rw [map_some, h a rfl]

theorem patchOwner_entry (s : OwnerRegistry) (fabricHex rootHex : String)
    (body : Except String MetaBody) (now ts : UInt64) (o : Landing) (key : OwnerKey) :
    (patchOwnerMetadata s.current s fabricHex rootHex body ts o).1.current.active[key]?
      = (s.current.active[key]?).map fun m =>
          AdminCall.editOwner key m ⟨.patchOwner fabricHex rootHex body, now, ts, o⟩ := by
  by_cases h : ∃ b target, body = .ok b ∧ addressedOwner fabricHex rootHex = some target
      ∧ checkMetaBody b = .ok ()
  · obtain ⟨b, target, rfl, haddr, hcheck⟩ := h
    rw [patchOwnerMetadata, ownerMetadata_ok hcheck haddr]
    cases hm : s.current.active[target]? with
    | none =>
      refine map_eq_self fun m hkey => ?_
      have hne : ¬(addressedOwner fabricHex rootHex = some key ∧ checkMetaBody b = .ok ()) :=
        fun hsame => by
          rw [haddr, some.injEq] at hsame
          rw [← hsame.1, hm] at hkey
          cases hkey
      cases o with
      | failed e kept => rfl
      | ok => exact if_neg hne
    | some m =>
      refine (updateMetadata_entry s target key (b.merged m.aliasName m.note) ts o hm).trans ?_
      split
      · next hok =>
        obtain ⟨rfl, rfl⟩ := hok
        rw [hm, map_some, AdminCall.editOwner_patch, if_pos ⟨haddr, hcheck⟩]
      · next hok =>
        refine map_eq_self fun m' _ => ?_
        cases o with
        | failed e kept => rfl
        | ok =>
          refine if_neg fun hsame => hok ⟨rfl, ?_⟩
          exact some.inj (haddr.symm.trans hsame.1)
  · -- refused before it is known whom it is about
    obtain ⟨e, he⟩ := ownerMetadata_error fabricHex rootHex body
      fun b key hbody hsame => h ⟨b, key, hbody, hsame.1, hsame.2⟩
    rw [patchOwnerMetadata, he]
    refine map_eq_self fun m _ => ?_
    cases body with
    | error e => rfl
    | ok b =>
      cases o with
      | failed e kept => rfl
      | ok => exact if_neg fun hsame => h ⟨b, key, rfl, hsame.1, hsame.2⟩

theorem renewOwner_entry (s : OwnerRegistry) (fabricHex rootHex : String)
    (body : Except String RenewBody) (now ts : UInt64) (o : Landing) (key : OwnerKey) :
    (renewOwner s.current s fabricHex rootHex body now ts o).1.current.active[key]?
      = (s.current.active[key]?).map fun m =>
          AdminCall.editOwner key m ⟨.renewOwner fabricHex rootHex body, now, ts, o⟩ := by
  cases hexp : ownerExpiry s.current fabricHex rootHex body now with
  | error e =>
    rw [renewOwner, hexp]
    refine map_eq_self fun m hm => ?_
    cases body with
    | error e => rfl
    | ok b =>
      cases o with
      | failed e kept => rfl
      | ok =>
        rw [AdminCall.editOwner_renew]
        split
        · next expiresAt hb =>
          refine if_neg fun haddr => ?_
          have hbase : renewBase s.current key now = leaseBase m.expiresAt now := by
            rw [renewBase, RegistrySnapshot.entryExpiresAt, hm, bind_some]
          have hok := ownerExpiry_eq_ok.mpr ⟨b, rfl, haddr, hbase.symm ▸ hb⟩
          rw [hexp] at hok
          cases hok
        · rfl
  | ok target =>
    obtain ⟨target, expiresAt⟩ := target
    obtain ⟨b, rfl, haddr, hb⟩ := ownerExpiry_eq_ok.mp hexp
    rw [renewOwner, hexp]
    refine (renew_entry s target key expiresAt ts o).trans ?_
    split
    · next hok =>
      obtain ⟨rfl, rfl⟩ := hok
      cases hm : s.current.active[target]? with
      | none => rfl
      | some m =>
        have hbase : renewBase s.current target now = leaseBase m.expiresAt now := by
          rw [renewBase, RegistrySnapshot.entryExpiresAt, hm, bind_some]
        rw [hbase] at hb
        rw [map_some, map_some, AdminCall.editOwner_renew, hb]
        exact congrArg some (if_pos haddr).symm
    · next hok =>
      refine map_eq_self fun m _ => ?_
      cases o with
      | failed e kept => rfl
      | ok =>
        rw [AdminCall.editOwner_renew]
        split
        · exact if_neg fun hsame => hok ⟨rfl, some.inj (haddr.symm.trans hsame)⟩
        · rfl

theorem serve_owner (c : AdminCall) (e : AdminLedgers) (key : OwnerKey) :
    (AdminLedgers.service.serve e c).owners.current.active[key]?
      = (e.owners.current.active[key]?).map fun m => c.editOwner key m := by
  obtain ⟨request, now, ts, o⟩ := c
  cases request with
  | patchOwner fabricHex rootHex body => exact patchOwner_entry e.owners _ _ body now ts o key
  | renewOwner fabricHex rootHex body => exact renewOwner_entry e.owners _ _ body now ts o key
  | patchVisitor endpointHex body => exact map_eq_self fun _ _ => rfl

theorem patchVisitor_entry (s : VisitorRegistry) (endpointHex : String)
    (body : Except String MetaBody) (now ts : UInt64) (o : Landing) (key : BytesN 32) :
    (patchVisitorMetadata s.active s endpointHex body ts o).1.active[key]?
      = (s.active[key]?).map fun v =>
          AdminCall.editVisitor key v ⟨.patchVisitor endpointHex body, now, ts, o⟩ := by
  by_cases h : ∃ b target, body = .ok b ∧ addressedVisitor endpointHex = some target
      ∧ checkMetaBody b = .ok ()
  · obtain ⟨b, target, rfl, haddr, hcheck⟩ := h
    rw [patchVisitorMetadata, visitorMetadata_ok hcheck haddr]
    cases hv : s.active[target]? with
    | none =>
      refine map_eq_self fun v hkey => ?_
      have hne : ¬(addressedVisitor endpointHex = some key ∧ checkMetaBody b = .ok ()) :=
        fun hsame => by
          rw [haddr, some.injEq] at hsame
          rw [← hsame.1, hv] at hkey
          cases hkey
      cases o with
      | failed e kept => rfl
      | ok => exact if_neg hne
    | some v =>
      refine (visitorUpdate_entry s target key (b.merged v.aliasName v.note) ts o hv).trans ?_
      split
      · next hok =>
        obtain ⟨rfl, rfl⟩ := hok
        rw [hv, map_some, AdminCall.editVisitor_patch, if_pos ⟨haddr, hcheck⟩]
      · next hok =>
        refine map_eq_self fun v' _ => ?_
        cases o with
        | failed e kept => rfl
        | ok =>
          refine if_neg fun hsame => hok ⟨rfl, ?_⟩
          exact some.inj (haddr.symm.trans hsame.1)
  · obtain ⟨e, he⟩ := visitorMetadata_error endpointHex body
      fun b key hbody hsame => h ⟨b, key, hbody, hsame.1, hsame.2⟩
    rw [patchVisitorMetadata, he]
    refine map_eq_self fun v _ => ?_
    cases body with
    | error e => rfl
    | ok b =>
      cases o with
      | failed e kept => rfl
      | ok => exact if_neg fun hsame => h ⟨b, key, rfl, hsame.1, hsame.2⟩

theorem serve_visitor (c : AdminCall) (e : AdminLedgers) (key : BytesN 32) :
    (AdminLedgers.service.serve e c).visitors.active[key]?
      = (e.visitors.active[key]?).map fun v => c.editVisitor key v := by
  obtain ⟨request, now, ts, o⟩ := c
  cases request with
  | patchOwner fabricHex rootHex body => exact map_eq_self fun _ _ => rfl
  | renewOwner fabricHex rootHex body => exact map_eq_self fun _ _ => rfl
  | patchVisitor endpointHex body => exact patchVisitor_entry e.visitors _ body now ts o key

theorem foldl_serve_owner (order : List AdminCall) (e : AdminLedgers) (key : OwnerKey) :
    (order.foldl AdminLedgers.service.serve e).owners.current.active[key]?
      = (e.owners.current.active[key]?).map fun m =>
          order.foldl (fun m c => c.editOwner key m) m := by
  induction order generalizing e with
  | nil => exact map_eq_self fun _ _ => rfl
  | cons c order ih =>
    rw [foldl_cons, ih, serve_owner, Option.map_map]
    rfl

theorem foldl_serve_visitor (order : List AdminCall) (e : AdminLedgers) (key : BytesN 32) :
    (order.foldl AdminLedgers.service.serve e).visitors.active[key]?
      = (e.visitors.active[key]?).map fun v =>
          order.foldl (fun v c => c.editVisitor key v) v := by
  induction order generalizing e with
  | nil => exact map_eq_self fun _ _ => rfl
  | cons c order ih =>
    rw [foldl_cons, ih, serve_visitor, Option.map_map]
    rfl

/-! ## A call on an older snapshot -/

theorem ownerMetadata_congr {fabricHex rootHex : String} {body : Except String MetaBody}
    {seen seen' : RegistrySnapshot}
    (h : ∀ b, body = .ok b → ∀ key ∈ addressedOwner fabricHex rootHex,
      (seen.active[key]?).map (fun m => b.leftOut m.aliasName m.note)
        = (seen'.active[key]?).map fun m => b.leftOut m.aliasName m.note) :
    ownerMetadata seen fabricHex rootHex body = ownerMetadata seen' fabricHex rootHex body := by
  by_cases hok : ∃ b target, body = .ok b ∧ addressedOwner fabricHex rootHex = some target
      ∧ checkMetaBody b = .ok ()
  · obtain ⟨b, target, rfl, haddr, hcheck⟩ := hok
    have hsame := h b rfl target haddr
    rw [ownerMetadata_ok hcheck haddr, ownerMetadata_ok hcheck haddr]
    cases hm : seen.active[target]? with
    | none =>
      rw [hm, map_none, eq_comm, map_eq_none_iff] at hsame
      rw [hsame]
    | some m =>
      rw [hm, map_some, eq_comm, map_eq_some_iff] at hsame
      obtain ⟨m', hm', hleft⟩ := hsame
      simp only [hm', MetaBody.merged_congr hleft]
  · obtain ⟨e, he⟩ := ownerMetadata_error fabricHex rootHex body
      fun b key hbody hsame => hok ⟨b, key, hbody, hsame.1, hsame.2⟩
    rw [he, he]

theorem visitorMetadata_congr {endpointHex : String} {body : Except String MetaBody}
    {seen seen' : ExtTreeMap (BytesN 32) VisitorEntry}
    (h : ∀ b, body = .ok b → ∀ key ∈ addressedVisitor endpointHex,
      (seen[key]?).map (fun v : VisitorEntry => b.leftOut v.aliasName v.note)
        = (seen'[key]?).map fun v : VisitorEntry => b.leftOut v.aliasName v.note) :
    visitorMetadata seen endpointHex body = visitorMetadata seen' endpointHex body := by
  by_cases hok : ∃ b target, body = .ok b ∧ addressedVisitor endpointHex = some target
      ∧ checkMetaBody b = .ok ()
  · obtain ⟨b, target, rfl, haddr, hcheck⟩ := hok
    have hsame := h b rfl target haddr
    rw [visitorMetadata_ok hcheck haddr, visitorMetadata_ok hcheck haddr]
    cases hv : seen[target]? with
    | none =>
      rw [hv, map_none, eq_comm, map_eq_none_iff] at hsame
      rw [hsame]
    | some v =>
      rw [hv, map_some, eq_comm, map_eq_some_iff] at hsame
      obtain ⟨v', hv', hleft⟩ := hsame
      simp only [hv', MetaBody.merged_congr hleft]
  · obtain ⟨e, he⟩ := visitorMetadata_error endpointHex body
      fun b key hbody hsame => hok ⟨b, key, hbody, hsame.1, hsame.2⟩
    rw [he, he]

theorem ownerExpiry_of_base {fabricHex rootHex : String} {body : Except String RenewBody}
    {now : UInt64} {seen seen' : RegistrySnapshot}
    (h : ∀ b days, body = .ok b → b.expiresInDays = some days →
      ∀ key ∈ addressedOwner fabricHex rootHex, renewBase seen key now = renewBase seen' key now)
    {target : OwnerKey × Option UInt64}
    (hok : ownerExpiry seen fabricHex rootHex body now = .ok target) :
    ownerExpiry seen' fabricHex rootHex body now = .ok target := by
  obtain ⟨key, expiresAt⟩ := target
  obtain ⟨b, rfl, haddr, hb⟩ := ownerExpiry_eq_ok.mp hok
  refine ownerExpiry_eq_ok.mpr ⟨b, rfl, haddr, ?_⟩
  cases hdays : b.expiresInDays with
  | none =>
    simp only [RenewBody.expiry, hdays] at hb ⊢
    exact hb
  | some days => rwa [h b days rfl hdays key haddr] at hb

theorem renewOwner_congr {fabricHex rootHex : String} {body : Except String RenewBody}
    {now : UInt64} {seen seen' : RegistrySnapshot}
    (h : ∀ b days, body = .ok b → b.expiresInDays = some days →
      ∀ key ∈ addressedOwner fabricHex rootHex, renewBase seen key now = renewBase seen' key now)
    (s : OwnerRegistry) (ts : UInt64) (o : Landing) :
    (renewOwner seen s fabricHex rootHex body now ts o).1
      = (renewOwner seen' s fabricHex rootHex body now ts o).1 := by
  cases hseen : ownerExpiry seen fabricHex rootHex body now with
  | ok target =>
    simp only [renewOwner, hseen, ownerExpiry_of_base h hseen]
  | error e =>
    cases hseen' : ownerExpiry seen' fabricHex rootHex body now with
    | error e' => simp only [renewOwner, hseen, hseen']
    | ok target =>
      have hok := ownerExpiry_of_base
        (fun b days hb hdays key hkey => (h b days hb hdays key hkey).symm) hseen'
      rw [hseen] at hok
      cases hok

/-- **A write on an older snapshot**: what the call relies on has not changed since. -/
theorem handle_upToDate (c : AdminCall) (seen : AdminSnapshot) (e : AdminLedgers)
    (h : Unaltered c seen e) : AdminLedgers.service.UpToDate c seen e := by
  obtain ⟨request, now, ts, o⟩ := c
  show AdminCall.handle _ seen e = AdminCall.handle _ e.snapshot e
  cases request with
  | patchOwner fabricHex rootHex body =>
    have hsame : ownerMetadata seen.owners fabricHex rootHex body
        = ownerMetadata e.owners.current fabricHex rootHex body :=
      ownerMetadata_congr fun b hbody key hkey => by
        subst hbody
        exact (h key hkey).symm
    simp only [AdminCall.handle, patchOwnerMetadata, hsame, AdminLedgers.snapshot]
  | renewOwner fabricHex rootHex body =>
    have hbase : ∀ b days, body = .ok b → b.expiresInDays = some days →
        ∀ key ∈ addressedOwner fabricHex rootHex,
          renewBase seen.owners key now = renewBase e.owners.current key now := by
      intro b days hbody hdays key hkey
      obtain ⟨_, permanent⟩ := b
      subst hbody hdays
      exact (h key hkey).symm
    have hsame := renewOwner_congr hbase e.owners ts o
    exact congrArg (fun owners => { e with owners }) hsame
  | patchVisitor endpointHex body =>
    have hsame : visitorMetadata seen.visitors endpointHex body
        = visitorMetadata e.visitors.active endpointHex body :=
      visitorMetadata_congr fun b hbody key hkey => by
        subst hbody
        exact (h key hkey).symm
    simp only [AdminCall.handle, patchVisitorMetadata, hsame, AdminLedgers.snapshot]

/-! ## Fields that a call does not name -/

def AdminCall.namesAlias (c : AdminCall) : Bool :=
  match c.request with
  | .patchOwner _ _ (.ok body) => body.aliasName.isSome
  | .patchVisitor _ (.ok body) => body.aliasName.isSome
  | _ => false

def AdminCall.namesNote (c : AdminCall) : Bool :=
  match c.request with
  | .patchOwner _ _ (.ok body) => body.note.isSome
  | .patchVisitor _ (.ok body) => body.note.isSome
  | _ => false

theorem mergeMetaField_of_isNone {incoming existing : Option String}
    (h : incoming.isSome = false) : mergeMetaField incoming existing = existing := by
  cases incoming with
  | some s => cases h
  | none => rfl

theorem AdminCall.editOwner_keeps (c : AdminCall) (key : OwnerKey) (m : EntryMeta) :
    (c.namesAlias = false → (c.editOwner key m).aliasName = m.aliasName)
      ∧ (c.namesNote = false → (c.editOwner key m).note = m.note) := by
  unfold AdminCall.editOwner
  split
  · next fabricHex rootHex body hreq _ =>
    simp only [AdminCall.namesAlias, AdminCall.namesNote, hreq]
    split
    · exact ⟨mergeMetaField_of_isNone, mergeMetaField_of_isNone⟩
    · exact ⟨fun _ => rfl, fun _ => rfl⟩
  · split
    · split
      · exact ⟨fun _ => rfl, fun _ => rfl⟩
      · exact ⟨fun _ => rfl, fun _ => rfl⟩
    · exact ⟨fun _ => rfl, fun _ => rfl⟩
  · exact ⟨fun _ => rfl, fun _ => rfl⟩

theorem AdminCall.editVisitor_keeps (c : AdminCall) (key : BytesN 32) (v : VisitorEntry) :
    (c.namesAlias = false → (c.editVisitor key v).aliasName = v.aliasName)
      ∧ (c.namesNote = false → (c.editVisitor key v).note = v.note) := by
  unfold AdminCall.editVisitor
  split
  · next endpointHex body hreq _ =>
    simp only [AdminCall.namesAlias, AdminCall.namesNote, hreq]
    split
    · exact ⟨mergeMetaField_of_isNone, mergeMetaField_of_isNone⟩
    · exact ⟨fun _ => rfl, fun _ => rfl⟩
  · exact ⟨fun _ => rfl, fun _ => rfl⟩

/-- A text of every owner, and one of every visitor, as they were. -/
structure SameTexts (owner : EntryMeta → Option String) (visitor : VisitorEntry → Option String)
    (e e' : AdminLedgers) : Prop where
  owners : ∀ key : OwnerKey,
    (e'.owners.current.active[key]?).map owner = (e.owners.current.active[key]?).map owner
  visitors : ∀ key : BytesN 32,
    (e'.visitors.active[key]?).map visitor = (e.visitors.active[key]?).map visitor

theorem serve_keeps (c : AdminCall) (e : AdminLedgers) :
    (c.namesAlias = false →
        SameTexts (·.aliasName) (·.aliasName) e (AdminLedgers.service.serve e c))
      ∧ (c.namesNote = false →
        SameTexts (·.note) (·.note) e (AdminLedgers.service.serve e c)) := by
  refine ⟨fun h => ⟨fun key => ?_, fun key => ?_⟩, fun h => ⟨fun key => ?_, fun key => ?_⟩⟩
  · rw [serve_owner, Option.map_map]
    exact Option.map_congr fun m _ => (c.editOwner_keeps key m).1 h
  · rw [serve_visitor, Option.map_map]
    exact Option.map_congr fun v _ => (c.editVisitor_keeps key v).1 h
  · rw [serve_owner, Option.map_map]
    exact Option.map_congr fun m _ => (c.editOwner_keeps key m).2 h
  · rw [serve_visitor, Option.map_map]
    exact Option.map_congr fun v _ => (c.editVisitor_keeps key v).2 h

/-! ## Two renewals -/

/-- A renewal of `key` by `days` days, while a lease to `expires` runs. -/
structure IsRenewal (key : OwnerKey) (days expires : UInt64) (c : AdminCall) : Prop where
  renews : ∃ fabricHex rootHex, c.request = .renewOwner fabricHex rootHex (.ok ⟨some days, none⟩)
    ∧ addressedOwner fabricHex rootHex = some key
  positive : 1 ≤ days.toNat
  lands : c.landing = .ok
  running : c.now < expires

theorem expiresAtFromDays_eq_ok {days base : UInt64} (hpos : 1 ≤ days.toNat)
    (hfit : base.toNat + days.toNat * DAY_MS.toNat < 2 ^ 64) :
    expiresAtFromDays days base = .ok (UInt64.ofNat (base.toNat + days.toNat * DAY_MS.toNat)) := by
  have hdays : ¬days < 1 := by
    rw [UInt64.lt_iff_toNat_lt]
    show ¬days.toNat < 1
    omega
  have hmul : (days * DAY_MS).toNat = days.toNat * DAY_MS.toNat := by
    rw [UInt64.toNat_mul]
    exact Nat.mod_eq_of_lt (by omega)
  have hadd : (base + days * DAY_MS).toNat = base.toNat + days.toNat * DAY_MS.toNat := by
    rw [UInt64.toNat_add, hmul]
    exact Nat.mod_eq_of_lt hfit
  have hwrap : ¬base + days * DAY_MS < base := by
    rw [UInt64.lt_iff_toNat_lt, hadd]
    omega
  have hsum : base + days * DAY_MS
      = UInt64.ofNat (base.toNat + days.toNat * DAY_MS.toNat) := by
    rw [← hadd, UInt64.ofNat_toNat]
  have hmulfit : days.toNat * DAY_MS.toNat < 2 ^ 64 := by omega
  rw [expiresAtFromDays, if_neg hdays, checkedMul, if_pos hmulfit, bind_some, checkedAdd,
    if_neg hwrap, hsum]

theorem IsRenewal.edit {key : OwnerKey} {days expires lease : UInt64} {c : AdminCall}
    (h : IsRenewal key days expires c) {m : EntryMeta} (hm : m.expiresAt = some lease)
    (hlease : expires ≤ lease) (hfit : lease.toNat + days.toNat * DAY_MS.toNat < 2 ^ 64) :
    (c.editOwner key m).expiresAt
      = some (UInt64.ofNat (lease.toNat + days.toNat * DAY_MS.toNat)) := by
  obtain ⟨⟨fabricHex, rootHex, hreq, haddr⟩, hpos, hlands, hrunning⟩ := h
  obtain ⟨request, now, ts, o⟩ := c
  subst hreq hlands
  have hbase : leaseBase m.expiresAt now = lease := by
    have hlt : now < lease := UInt64.lt_of_lt_of_le hrunning hlease
    rw [leaseBase, hm, filter_some, if_pos (decide_eq_true hlt), getD_some]
  have hexpiry : RenewBody.expiry ⟨some days, none⟩ lease
      = some (some (UInt64.ofNat (lease.toNat + days.toNat * DAY_MS.toNat))) := by
    have hone : ¬((some days).isSome == (none : Option Bool).isSome) = true := by simp
    rw [RenewBody.expiry, if_neg hone]
    simp only [expiresAtFromDays_eq_ok hpos hfit]
    rfl
  rw [AdminCall.editOwner_renew, hbase, hexpiry]
  simp only [if_pos haddr]

theorem two_renewals {key : OwnerKey} {days₁ days₂ expires : UInt64} {c₁ c₂ : AdminCall}
    (h₁ : IsRenewal key days₁ expires c₁) (h₂ : IsRenewal key days₂ expires c₂) {m : EntryMeta}
    (hm : m.expiresAt = some expires)
    (hfit : expires.toNat + (days₁.toNat + days₂.toNat) * DAY_MS.toNat < 2 ^ 64) :
    (c₂.editOwner key (c₁.editOwner key m)).expiresAt
      = some (UInt64.ofNat (expires.toNat + (days₁.toNat + days₂.toNat) * DAY_MS.toNat)) := by
  have hsplit : expires.toNat + (days₁.toNat + days₂.toNat) * DAY_MS.toNat
      = expires.toNat + days₁.toNat * DAY_MS.toNat + days₂.toNat * DAY_MS.toNat := by
    rw [Nat.add_mul, Nat.add_assoc]
  rw [hsplit] at hfit ⊢
  have hfirst := h₁.edit hm (UInt64.le_refl _) (by omega)
  have hlease : (UInt64.ofNat (expires.toNat + days₁.toNat * DAY_MS.toNat)).toNat
      = expires.toNat + days₁.toNat * DAY_MS.toNat := by
    rw [UInt64.toNat_ofNat']
    exact Nat.mod_eq_of_lt (by omega)
  have hle : expires ≤ UInt64.ofNat (expires.toNat + days₁.toNat * DAY_MS.toNat) := by
    rw [UInt64.le_iff_toNat_le, hlease]
    omega
  rw [h₂.edit hfirst hle (by rw [hlease]; exact hfit), hlease]

/-! ## Runs -/

open SnapshotService (WriteWhen)

/-- **No admin edit is lost** where no write finds altered what its handler left out or counted
from. The ledgers are those of the finished calls one by one, each entry edited in that order; a
call leaves the texts that it does not name; two renewals of a running lease add up. -/
theorem admin_updates_serialized {start : AdminLedgers}
    {s : SnapshotService.State AdminLedgers AdminSnapshot AdminCall}
    (h : (AdminLedgers.service.machine start).ReachableUnder (WriteWhen Unaltered) s) :
    (∃ order : List AdminCall, order.Perm s.finished
      ∧ s.resource = order.foldl AdminLedgers.service.serve start
      ∧ (∀ key : OwnerKey, s.resource.owners.current.active[key]?
          = (start.owners.current.active[key]?).map fun m =>
              order.foldl (fun m c => c.editOwner key m) m)
      ∧ ∀ key : BytesN 32, s.resource.visitors.active[key]?
          = (start.visitors.active[key]?).map fun v =>
              order.foldl (fun v c => c.editVisitor key v) v)
      ∧ (∀ l s' c seen, WriteWhen Unaltered s l → AdminLedgers.service.step s l = some s' →
          s.writing l = some (c, seen) →
          (c.namesAlias = false →
              SameTexts (·.aliasName) (·.aliasName) s.resource s'.resource)
            ∧ (c.namesNote = false → SameTexts (·.note) (·.note) s.resource s'.resource))
      ∧ ∀ key days₁ days₂ expires c₁ c₂, IsRenewal key days₁ expires c₁ →
          IsRenewal key days₂ expires c₂ → s.finished.Perm [c₁, c₂] →
          start.owners.current.entryExpiresAt key = some expires →
          expires.toNat + (days₁.toNat + days₂.toNat) * DAY_MS.toNat < 2 ^ 64 →
          s.resource.owners.current.entryExpiresAt key
            = some (UInt64.ofNat (expires.toNat
                + (days₁.toNat + days₂.toNat) * DAY_MS.toNat)) := by
  obtain ⟨order, hperm, hfold⟩ :=
    AdminLedgers.service.serialized handle_upToDate h
  have howner : ∀ key : OwnerKey, s.resource.owners.current.active[key]?
      = (start.owners.current.active[key]?).map fun m =>
          order.foldl (fun m c => c.editOwner key m) m :=
    fun key => hfold ▸ foldl_serve_owner order start key
  have hvisitor : ∀ key : BytesN 32, s.resource.visitors.active[key]?
      = (start.visitors.active[key]?).map fun v =>
          order.foldl (fun v c => c.editVisitor key v) v :=
    fun key => hfold ▸ foldl_serve_visitor order start key
  refine ⟨⟨order, hperm, hfold, howner, hvisitor⟩, ?_, ?_⟩
  · intro l s' c seen hguard hstep hwriting
    have hresource : s'.resource = AdminLedgers.service.serve s.resource c := by
      rcases AdminLedgers.service.finished_step hstep with
        ⟨hnone, _⟩ | ⟨d, seen', hsome, hres, _⟩
      · rw [hnone] at hwriting
        cases hwriting
      · rw [hsome, some.injEq, Prod.mk.injEq] at hwriting
        obtain ⟨rfl, rfl⟩ := hwriting
        exact hres.trans (handle_upToDate d seen' s.resource (hguard _ hsome))
    rw [hresource]
    exact serve_keeps c s.resource
  · intro key days₁ days₂ expires c₁ c₂ h₁ h₂ hfin hstart hfit
    obtain ⟨m, hm, hlease⟩ := bind_eq_some_iff.mp hstart
    rw [RegistrySnapshot.entryExpiresAt, howner key, hm, map_some, bind_some]
    -- in whichever order the two came
    rcases perm_pair.mp (hperm.trans hfin) with rfl | rfl
    · exact two_renewals h₁ h₂ hlease hfit
    · rw [Nat.add_comm days₁.toNat] at hfit ⊢
      exact two_renewals h₂ h₁ hlease hfit

namespace SampleAdmin

def owner : OwnerKey := ⟨BytesN.ofNat 32 7, BytesN.ofNat 32 8⟩

def fabricHex : String := hexStr owner.fabricId.toBytes

def rootHex : String := hexStr owner.root.toBytes

def ledgers : AdminLedgers where
  owners := {
    file := []
    current := {
      active := ExtTreeMap.empty.insert owner ⟨1, some 1000, none, none⟩
      viaCode := ∅ } }
  visitors := { file := [], active := ∅ }

def setAlias : AdminCall :=
  ⟨.patchOwner fabricHex rootHex (.ok ⟨some "a", none⟩), 10, 11, .ok⟩

def setNote : AdminCall :=
  ⟨.patchOwner fabricHex rootHex (.ok ⟨none, some "n"⟩), 10, 12, .ok⟩

def texts (e : AdminLedgers) : Option (Option String × Option String) :=
  (e.owners.current.active[owner]?).map fun m => (m.aliasName, m.note)

theorem patches_in_turn :
    ∃ s, (AdminLedgers.service.machine ledgers).run { resource := ledgers, calls := [] }
        [.arrive setAlias, .load 0, .finish 0, .arrive setNote, .load 1, .finish 1] = some s
      ∧ texts s.resource = some (some "a", some "n")
      ∧ ∃ order : List AdminCall, order.Perm s.finished
        ∧ s.resource = order.foldl AdminLedgers.service.serve ledgers := by
  have hrun : ∃ s, (AdminLedgers.service.machine ledgers).run { resource := ledgers, calls := [] }
        [.arrive setAlias, .load 0, .finish 0, .arrive setNote, .load 1, .finish 1] = some s
      ∧ (AdminLedgers.service.machine ledgers).runUnder (WriteWhen Unaltered)
        { resource := ledgers, calls := [] }
        [.arrive setAlias, .load 0, .finish 0, .arrive setNote, .load 1, .finish 1] = some s
      ∧ texts s.resource = some (some "a", some "n") := ⟨_, rfl, rfl, by decide⟩
  obtain ⟨s, hrun, hunder, htexts⟩ := hrun
  obtain ⟨⟨order, hperm, hfold, _⟩, _⟩ :=
    admin_updates_serialized (Machine.reachableUnder_runUnder (.init rfl) hunder)
  exact ⟨s, hrun, htexts, order, hperm, hfold⟩

/-- Two PATCHes that name a field each, both loaded before either writes: the second puts back
the alias that it had loaded. -/
theorem patch_reverts_alias :
    ∃ s, (AdminLedgers.service.machine ledgers).Reachable s ∧ s.finished = [setAlias, setNote]
      ∧ ∀ order : List AdminCall, order.Perm s.finished →
        texts s.resource ≠ texts (order.foldl AdminLedgers.service.serve ledgers) := by
  have hrun : ∃ s, (AdminLedgers.service.machine ledgers).run { resource := ledgers, calls := [] }
        [.arrive setAlias, .arrive setNote, .load 0, .load 1, .finish 0, .finish 1] = some s
      ∧ s.finished = [setAlias, setNote]
      ∧ texts s.resource = some (none, some "n") := ⟨_, rfl, rfl, by decide⟩
  obtain ⟨s, hrun, hfin, htexts⟩ := hrun
  refine ⟨s, Machine.reachable_of_run rfl hrun, hfin, fun order hperm => ?_⟩
  rw [hfin] at hperm
  rw [htexts]
  rcases perm_pair.mp hperm with rfl | rfl
  · decide
  · decide

end SampleAdmin

end Admin

end Dweb
