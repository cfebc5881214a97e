import HopsFormal.Config.Merge
import HopsFormal.Removal.CacheListed
import HopsFormal.Trust.Persistence

/-!
# Fingerprints of the file in another letter case

A fingerprint enters from the file as a key of the table of trusted machines, as a
key of the table of removed ones and as the pin of a device.  The keys are brought
to lowercase where they are read; a pin is only checked, so one that is not written
in lowercase is dropped.
-/

namespace HopsFormal.Config

open List Lib
open Removal (Tables listedIn lowered revokedKeys)
open Trust (Lowercase validFingerprint inFingerprint inFingerprint_range
  validFingerprint_chars inFingerprint_toLower)

variable {Ip Settings : Type}

/-! ## What is read of the tables -/

/-- What is authorized and not removed, and what was taken out of it. -/
def subtractRevoked (authorized : Table String String) (revoked : Table String RevokedEntry) :
    Table String String × List String :=
  let refused := (revoked.keys.filter (· ∈ authorized)).mergeSort
  (refused.foldl (fun left fp => left.erase fp) authorized, refused)

theorem mem_subtractRevoked {authorized : Table String String}
    {revoked : Table String RevokedEntry} {fp : String} :
    fp ∈ (subtractRevoked authorized revoked).1 ↔ fp ∈ authorized ∧ fp ∉ revoked := by
  have folded : ∀ (refused : List String) (left : Table String String),
      fp ∈ refused.foldl (fun left fp => left.erase fp) left ↔ fp ∈ left ∧ fp ∉ refused := by
    intro refused
    induction refused with
    | nil => simp
    | cons first rest ih =>
      intro left
      rw [foldl_cons, ih, AList.mem_erase, mem_cons]
      tauto
  rw [subtractRevoked, folded, mem_mergeSort, mem_filter, decide_eq_true_eq,
    AList.mem_keys]
  tauto

theorem mem_refused {authorized : Table String String} {revoked : Table String RevokedEntry}
    {fp : String} :
    fp ∈ (subtractRevoked authorized revoked).2 ↔ fp ∈ revoked ∧ fp ∈ authorized := by
  rw [subtractRevoked, mem_mergeSort, mem_filter, decide_eq_true_eq]
  rfl

/-- The tables of a config that name machines. -/
def tables (config : ConfigToml Ip Settings) : Tables :=
  ⟨config.authorizedFingerprints, config.revokedFingerprints.getD ∅⟩

/-- The machine each device is pinned to. -/
def pins [DecidableEq Ip] (config : ConfigToml Ip Settings) : List (Option String) :=
  (config.clients.getD []).map fun client => (ofToml client).fingerprint

section Reading

variable [Lowercase]

/-- A table under its keys in lowercase; of two rows that become one the later stays. -/
def lowercaseKeys {α : Type} (table : Table String α) : Table String α :=
  table.entries.foldl (fun lowered row => lowered.insert (Lowercase.toLowercase row.1) row.2) ∅

variable (config : ConfigToml Ip Settings)

def authorizedFingerprints : Table String String :=
  lowercaseKeys (config.authorizedFingerprints.getD ∅)

def revokedFingerprints : Table String RevokedEntry :=
  lowercaseKeys (config.revokedFingerprints.getD ∅)

def effectiveAllowlist : Table String String × List String :=
  subtractRevoked (authorizedFingerprints config) (revokedFingerprints config)

theorem mem_lowercaseKeys {α : Type} {table : Table String α} {fp : String} :
    fp ∈ lowercaseKeys table ↔ fp ∈ table.keys.map Lowercase.toLowercase := by
  have folded : ∀ (rows : List (Sigma fun _ : String => α)) (left : Table String α),
      fp ∈ rows.foldl (fun lowered row => lowered.insert (Lowercase.toLowercase row.1) row.2) left ↔
        fp ∈ left ∨ fp ∈ rows.map fun row => Lowercase.toLowercase row.1 := by
    intro rows
    induction rows with
    | nil => simp
    | cons row rest ih =>
      intro left
      rw [foldl_cons, ih, AList.mem_insert, map_cons, mem_cons]
      tauto
  rw [lowercaseKeys, folded]
  simp [AList.keys, List.keys]

theorem mem_listedIn {config : ConfigToml Ip Settings} {list : List String}
    (isList : listedIn (tables config) = some list) {fp : String} :
    fp ∈ list ↔ fp ∈ (effectiveAllowlist config).1 := by
  obtain ⟨listed, isTable, rfl⟩ := Option.map_eq_some_iff.mp isList
  have here : config.authorizedFingerprints = some listed := isTable
  rw [effectiveAllowlist, mem_subtractRevoked, authorizedFingerprints, revokedFingerprints,
    mem_lowercaseKeys, mem_lowercaseKeys, here, mem_filter, decide_eq_true_eq]
  have keys : fp ∈ (lowered listed).map Prod.fst ↔ fp ∈ listed.keys.map Lowercase.toLowercase := by
    simp [lowered, AList.keys, List.keys]
  rw [keys]
  rfl

end Reading

/-! ## A fingerprint in another letter case -/

/-- A text is a fingerprint, in whatever letter case. -/
def Spells (text fp : String) : Prop :=
  validFingerprint fp = true ∧ text.toList.map Char.toLower = fp.toList

/-- A fingerprint may be written in another letter case, anything else stays as it is. -/
def Respelled (before after : String) : Prop :=
  before = after ∨ ∃ fp, Spells before fp ∧ Spells after fp

def RespelledTable {α : Type} (before after : Table String α) : Prop :=
  Forall₂ (fun row other => Respelled row.1 other.1 ∧ row.2 = other.2)
    before.entries after.entries

/-- The same device, with a pin that may be in another letter case. -/
def RespelledClient (before after : TomlClient Ip) : Prop :=
  ∃ pin, Option.Rel Respelled before.fingerprint pin ∧ after = { before with fingerprint := pin }

/-- The same file, with fingerprints that may be in another letter case. -/
structure RespelledFile (before after : ConfigToml Ip Settings) : Prop where
  clients : Option.Rel (Forall₂ RespelledClient) before.clients after.clients
  authorized : Option.Rel RespelledTable before.authorizedFingerprints after.authorizedFingerprints
  revoked : Option.Rel RespelledTable before.revokedFingerprints after.revokedFingerprints
  settings : after.settings = before.settings

/-- Two files name the same machines: as listed, as taken out, and as pins. -/
structure NameAlike [DecidableEq Ip] [Lowercase] (before after : ConfigToml Ip Settings) :
    Prop where
  authorized : ∀ fp, fp ∈ authorizedFingerprints before ↔ fp ∈ authorizedFingerprints after
  allowed : ∀ fp, fp ∈ (effectiveAllowlist before).1 ↔ fp ∈ (effectiveAllowlist after).1
  listed : Option.Rel (fun list other => ∀ fp, fp ∈ list ↔ fp ∈ other)
    (listedIn (tables before)) (listedIn (tables after))
  refused : ∀ fp, fp ∈ (effectiveAllowlist before).2 ↔ fp ∈ (effectiveAllowlist after).2
  pins : pins before = pins after

section Respelling

variable [Lowercase]

/-- A pin is written in lowercase in both files or in neither. -/
def SameCase (before after : Option String) : Prop :=
  ∀ pin ∈ before, ∀ other ∈ after,
    Lowercase.toLowercase pin = pin ↔ Lowercase.toLowercase other = other

theorem Spells.toLowercase {text fp : String} (spells : Spells text fp) :
    Lowercase.toLowercase text = fp := by
  obtain ⟨valid, same⟩ := spells
  rw [Lowercase.ascii, same, String.ofList_toList]
  intro c member
  have lower : c.toLower ∈ fp.toList := same ▸ mem_map_of_mem member
  have range := inFingerprint_range (validFingerprint_chars valid _ lower)
  by_cases upper : 65 ≤ c.toNat ∧ c.toNat ≤ 90
  · omega
  · have unchanged : c.toLower = c := by
      exact dif_neg upper
    rw [unchanged] at range
    omega

theorem Respelled.toLowercase {before after : String} (respelled : Respelled before after) :
    Lowercase.toLowercase before = Lowercase.toLowercase after := by
  rcases respelled with rfl | ⟨fp, first, second⟩
  · rfl
  · rw [first.toLowercase, second.toLowercase]

theorem Spells.valid_iff {text fp : String} (spells : Spells text fp) :
    validFingerprint text = true ↔ Lowercase.toLowercase text = text := by
  rw [spells.toLowercase]
  constructor
  · intro valid
    rw [← spells.toLowercase, Trust.toLowercase_of_valid valid]
  · rintro rfl
    exact spells.1

theorem Respelled.pin_iff {before after : String} (respelled : Respelled before after) :
    (some before).filter validFingerprint = (some after).filter validFingerprint ↔
      (Lowercase.toLowercase before = before ↔ Lowercase.toLowercase after = after) := by
  rcases respelled with rfl | ⟨fp, first, second⟩
  · exact ⟨fun _ => Iff.rfl, fun _ => rfl⟩
  · rw [← first.valid_iff, ← second.valid_iff, Option.filter_some, Option.filter_some]
    cases isFirst : validFingerprint before with
    | false =>
      cases isSecond : validFingerprint after with
      | false | true => simp
    | true =>
      cases isSecond : validFingerprint after with
      | false => simp
      | true =>
        have same : before = after := by
          rw [← Trust.toLowercase_of_valid isFirst, ← Trust.toLowercase_of_valid isSecond,
            first.toLowercase, second.toLowercase]
        simp [same]

theorem RespelledTable.mem_iff {α : Type} {before after : Table String α}
    (respelled : RespelledTable before after) (fp : String) :
    fp ∈ lowercaseKeys before ↔ fp ∈ lowercaseKeys after := by
  have keys : before.keys.map Lowercase.toLowercase = after.keys.map Lowercase.toLowercase := by
    unfold RespelledTable at respelled
    unfold AList.keys List.keys
    generalize before.entries = rows at respelled ⊢
    generalize after.entries = others at respelled ⊢
    induction respelled with
    | nil => rfl
    | cons same rest ih =>
      rw [map_cons, map_cons, map_cons, map_cons, ih, same.1.toLowercase]
  rw [mem_lowercaseKeys, mem_lowercaseKeys, keys]

theorem mem_iff_of_rel {α : Type} {before after : Option (Table String α)}
    (respelled : Option.Rel RespelledTable before after) (fp : String) :
    fp ∈ lowercaseKeys (before.getD ∅) ↔ fp ∈ lowercaseKeys (after.getD ∅) := by
  cases respelled with
  | none => rfl
  | some same => exact same.mem_iff fp

variable {before after : ConfigToml Ip Settings}

section

variable (respelled : RespelledFile before after)
include respelled

variable (fp : String)

theorem RespelledFile.authorized_iff :
    fp ∈ authorizedFingerprints before ↔ fp ∈ authorizedFingerprints after :=
  mem_iff_of_rel respelled.authorized fp

theorem RespelledFile.revoked_iff :
    fp ∈ revokedFingerprints before ↔ fp ∈ revokedFingerprints after :=
  mem_iff_of_rel respelled.revoked fp

theorem RespelledFile.allowed_iff :
    fp ∈ (effectiveAllowlist before).1 ↔ fp ∈ (effectiveAllowlist after).1 := by
  rw [effectiveAllowlist, effectiveAllowlist, mem_subtractRevoked, mem_subtractRevoked,
    respelled.authorized_iff, respelled.revoked_iff]

theorem RespelledFile.refused_iff :
    fp ∈ (effectiveAllowlist before).2 ↔ fp ∈ (effectiveAllowlist after).2 := by
  rw [effectiveAllowlist, effectiveAllowlist, mem_refused, mem_refused,
    respelled.authorized_iff, respelled.revoked_iff]

theorem RespelledFile.listed : Option.Rel (fun list other => ∀ fp, fp ∈ list ↔ fp ∈ other)
      (listedIn (tables before)) (listedIn (tables after)) := by
  have isBefore : listedIn (tables before) =
      before.authorizedFingerprints.map fun listed =>
        ((lowered listed).map Prod.fst).filter fun fp => fp ∉ revokedKeys (tables before) := rfl
  have isAfter : listedIn (tables after) =
      after.authorizedFingerprints.map fun listed =>
        ((lowered listed).map Prod.fst).filter fun fp => fp ∉ revokedKeys (tables after) := rfl
  cases first : listedIn (tables before) with
  | none =>
    rw [first] at isBefore
    cases second : listedIn (tables after) with
    | none => exact .none
    | some other =>
      obtain ⟨listed, isTable, -⟩ := Option.map_eq_some_iff.mp (second ▸ isAfter).symm
      have none_ := Option.map_eq_none_iff.mp isBefore.symm
      have related := respelled.authorized
      rw [none_, isTable] at related
      cases related
  | some list =>
    rw [first] at isBefore
    cases second : listedIn (tables after) with
    | none =>
      obtain ⟨listed, isTable, -⟩ := Option.map_eq_some_iff.mp isBefore.symm
      have none_ := Option.map_eq_none_iff.mp (second ▸ isAfter).symm
      have related := respelled.authorized
      rw [none_, isTable] at related
      cases related
    | some other =>
      refine .some fun fp => ?_
      rw [mem_listedIn first, mem_listedIn second, respelled.allowed_iff]

theorem RespelledFile.pins_iff [DecidableEq Ip] : pins before = pins after ↔
      Forall₂ (fun client other => SameCase client.fingerprint other.fingerprint)
        (before.clients.getD []) (after.clients.getD []) := by
  have each : Forall₂ RespelledClient (before.clients.getD []) (after.clients.getD []) := by
    have related := respelled.clients
    generalize before.clients = first at related ⊢
    generalize after.clients = second at related ⊢
    cases related with
    | none => exact .nil
    | some each => exact each
  unfold pins
  generalize before.clients.getD [] = first at each ⊢
  generalize after.clients.getD [] = second at each ⊢
  induction each with
  | nil => simp
  | @cons client other clients others same rest ih =>
    obtain ⟨pin, related, rfl⟩ := same
    rw [map_cons, map_cons, List.cons.injEq, forall₂_cons]
    refine and_congr ?_ ih
    unfold ofToml SameCase
    generalize client.fingerprint = written at related ⊢
    cases related with
    | none => simp
    | some same => simpa using same.pin_iff

end

/--
A file whose fingerprints are written in another letter case lists the same machines
and takes out the same ones.  It pins the devices alike exactly when each pin is in
lowercase in both files or in neither.
-/
theorem letter_case_matters_to_pins [DecidableEq Ip] {before after : ConfigToml Ip Settings}
    (respelled : RespelledFile before after) :
    NameAlike before after ↔
      Forall₂ (fun client other => SameCase client.fingerprint other.fingerprint)
        (before.clients.getD []) (after.clients.getD []) := by
  constructor
  · exact fun alike => respelled.pins_iff.mp alike.pins
  · intro sameCase
    exact ⟨respelled.authorized_iff, respelled.allowed_iff, respelled.listed,
      respelled.refused_iff, respelled.pins_iff.mpr sameCase⟩

end Respelling

/-! ## A pin in capitals -/

section Capitals

open Trust.TrustStore (machineA machineA_valid)

def capitals : String :=
  "AA:AA:AA:AA:AA:AA:AA:AA:AA:AA:AA:AA:AA:AA:AA:AA:AA:AA:AA:AA:AA:AA:AA:AA:AA:AA:AA:AA:AA:AA:AA:AA"

theorem capitals_spells : Spells capitals machineA := ⟨machineA_valid, by decide +kernel⟩

def pinned (pin : String) : ConfigToml Unit Unit where
  clients := some [⟨some "desk", none, none, none, none, none, none, some pin, none, none⟩]
  authorizedFingerprints := some (AList.singleton pin "desk")
  revokedFingerprints := none
  settings := ()

theorem pinned_respelled {pin other : String} (respelled : Respelled pin other) :
    RespelledFile (pinned pin) (pinned other) :=
  ⟨.some (.cons ⟨some other, .some respelled, rfl⟩ .nil),
    .some (.cons ⟨respelled, rfl⟩ .nil), .none, rfl⟩

/-- A pin written in capitals is not read, and the same pin in lowercase is. -/
theorem pin_in_capitals_dropped :
    ¬ ∀ before after : ConfigToml Unit Unit, RespelledFile before after →
      @NameAlike Unit Unit _ Trust.asciiLowercase before after := by
  intro alike
  have respelled : Respelled machineA capitals :=
    .inr ⟨machineA, ⟨machineA_valid, by decide +kernel⟩, capitals_spells⟩
  let _ := Trust.asciiLowercase
  have same := (alike _ _ (pinned_respelled respelled)).pins
  have first : pins (pinned machineA) = [some machineA] := by decide +kernel
  have second : pins (pinned capitals) = [none] := by decide +kernel
  rw [first, second] at same
  cases same

/--
With a pin in lowercase, the table may spell the machine in capitals; a file that pins
it in capitals too does not name the machines alike.
-/
theorem letter_case_matters_to_pins_key :
    letI := Trust.asciiLowercase
    NameAlike (pinned machineA)
        { pinned capitals with clients := (pinned machineA).clients } ∧
      ¬ NameAlike (pinned machineA) (pinned capitals) := by
  let _ := Trust.asciiLowercase
  have respelled : Respelled machineA capitals :=
    .inr ⟨machineA, ⟨machineA_valid, by decide +kernel⟩, capitals_spells⟩
  have sameDevices : RespelledFile (pinned machineA)
      { pinned capitals with clients := (pinned machineA).clients } :=
    ⟨.some (.cons ⟨some machineA, .some (.inl rfl), rfl⟩ .nil),
      .some (.cons ⟨respelled, rfl⟩ .nil), .none, rfl⟩
  constructor
  · refine (letter_case_matters_to_pins sameDevices).mpr
      (forall₂_same.mpr fun client _ pin isPin other isOther => ?_)
    rw [Option.mem_unique isPin isOther]
  · intro alike
    cases (letter_case_matters_to_pins (pinned_respelled respelled)).mp alike with
    | cons same _ =>
      exact absurd ((same machineA rfl capitals rfl).mp (by decide +kernel)) (by decide +kernel)

end Capitals

end HopsFormal.Config
