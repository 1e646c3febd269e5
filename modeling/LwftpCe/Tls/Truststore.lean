import LwftpCe.Lib.Trace
import LwftpCe.Tls.Rsa

/-!
# The truststore

`truststore.c`.  The AppVar is the memory behind the pointer of `os_GetAppVarData`: the size word, the signature (256
bytes), the header (8 bytes) and the entries (104 bytes each).  The key of the module, `trust_store_pubkey`, is a
parameter.
-/

namespace LwftpCe.Tls

open Lib List TruststoreState Option Mem

/-! ### The clock -/

/-- What `boot_GetDate` and `boot_GetTime` give. -/
structure Clock where
  day : ℕ
  month : ℕ
  year : ℕ
  hours : ℕ
  minutes : ℕ
  seconds : ℕ

/-- The fields of `lwip_app_config_t` that are read here. -/
structure AppConfig where
  flags : UInt8
  tzOffsetMinutes : ℤ
  dstEnabled : Bool

def AppConfig.checkDates (cfg : AppConfig) : Bool := cfg.flags &&& 0x20 ≠ 0

def AppConfig.checkOwner (cfg : AppConfig) : Bool := cfg.flags &&& 0x40 ≠ 0

def isLeapYear (year : ℕ) : Bool := year % 4 = 0 ∧ (year % 100 ≠ 0 ∨ year % 400 = 0)

def daysInMonth : List ℕ := [31, 28, 31, 30, 31, 30, 31, 31, 30, 31, 30, 31]

def tlsTruststoreGetUtc (cfg : AppConfig) (t : Clock) : Option ℕ :=
  if t.year < 1970 ∨ t.month = 0 ∨ t.month > 12 ∨ t.day = 0 then none
  else
    let days := (List.range' 1970 (t.year - 1970)).foldl (fun days y => days + if isLeapYear y then 366 else 365) 0
    let days := (List.range' 1 (t.month - 1)).foldl
      (fun days m => days + if m = 2 ∧ isLeapYear t.year then 29 else daysInMonth.getD (m - 1) 0) days
    let days := days + (t.day - 1)
    -- 32-bit arithmetic: the years behind 2106 wrap around
    let here : ℕ := (days * 86400 + t.hours * 3600 + t.minutes * 60 + t.seconds) % 2 ^ 32
    let utc : ℤ := (here : ℤ) - cfg.tzOffsetMinutes * 60
    let utc := if cfg.dstEnabled then utc - 3600 else utc
    if utc < 0 then none else some (utc.toNat % 2 ^ 32)

/-! ### The store -/

abbrev SpkiEntry := Bytes

namespace SpkiEntry

def ownerId (e : SpkiEntry) : Bytes := e.take 32

def issuerId (e : SpkiEntry) : Bytes := (e.drop 32).take 32

def notBefore (e : SpkiEntry) : ℕ := (Mem.ofBytes e).dword 64

def notAfter (e : SpkiEntry) : ℕ := (Mem.ofBytes e).dword 68

def spkiHash (e : SpkiEntry) : Bytes := e.drop 72

end SpkiEntry

def signedPart (m : Mem) : Bytes := m.read 258 (m.word 0 - 258)

def spkiEntries (m : Mem) : List SpkiEntry := (List.range ((m.word 0 - 266) / 104)).map fun i => m.read (266 + 104 * i) 104

def TruststoreState.ofStore (m : Mem) : TruststoreState := ⟨.ok, m.word 0, m.word 262, m.word 264, m.dword 258⟩

def TlsCtx.setStatus (ctx : TlsCtx) (status : StoreStatus) : TlsCtx :=
  ctx.setStore { ctx.truststore with status := status }

def tlsTruststoreInit (hash : Hash) (pubkey : Bytes) (ctx : TlsCtx) (var : Option Mem) : Bool × TlsCtx :=
  match var with
  | none => (false, ctx.setStatus .notFound)
  | some m =>
    if m.word 0 < 266 then (false, ctx.setStatus .sizeInvalid)
    else if m.word 264 ≠ 0 then (false, ctx.setStatus .versionMismatch)
    else
      match tlsRsaDecryptSignature (m.read 2 256) pubkey with
      | none => (false, ctx.setStatus .sigDecryptFail)
      | some dSig =>
        match tlsRsaPssVerify hash ctx dSig (hash.bytes (signedPart m)) tlsHashSha256 with
        | (false, ctx) => (false, ctx.setStatus .sigInvalid)
        | (true, ctx) => (true, ctx.setStore (.ofStore m))

/-- `tls_truststore_match_id`: of the id, the string up to the first zero is compared, 32 bytes at most. -/
def tlsTruststoreMatchId (entryId : Bytes) : Option Mem → Bool
  | none => false
  | some id =>
    let len := ((id.read 0 32).takeWhile (· ≠ 0)).length
    entryId.take len = id.read 0 len ∧ (entryId.drop len).all (· = 0)

/-- The arguments of a lookup, with the configuration and the clock. -/
structure Query where
  cfg : AppConfig
  clock : Clock
  recvdHash : Arr 32
  ownerId : Option Mem
  issuerId : Option Mem

def Query.now (q : Query) : Option ℕ := if q.cfg.checkDates then tlsTruststoreGetUtc q.cfg q.clock else some 0

def Query.search (q : Query) (now : ℕ) : List SpkiEntry → Except (Option StoreStatus) SpkiEntry
  | [] => .error none
  | e :: es =>
    if e.spkiHash = q.recvdHash.val then
      if q.cfg.checkDates ∧ (now < e.notBefore ∨ now > e.notAfter) then .error (some .timeInvalid)
      else if q.cfg.checkOwner ∧ (!tlsTruststoreMatchId e.ownerId q.ownerId ∨ !tlsTruststoreMatchId e.issuerId q.issuerId) then
        .error (some .entryMismatch)
      else .ok e
    else q.search now es

/-- The status that the checks of `tls_truststore_lookup_ex` set for a store; `st` is what `tls_truststore_init` recorded. -/
def storeFault (st : TruststoreState) (m : Mem) : Option StoreStatus :=
  if m.word 0 < 266 then some .sizeInvalid
  else if m.word 264 ≠ 0 then some .versionMismatch
  else if (m.word 0 - 266) % 104 ≠ 0 then some .sizeInvalid
  else if m.word 262 ≠ (m.word 0 - 266) / 104 then some .entryMismatch
  else if m.word 0 ≠ st.size ∨ m.word 262 ≠ st.entryCount ∨ m.word 264 ≠ st.version ∨ m.dword 258 ≠ st.createdTimestamp then
    some .entryMismatch
  else none

def tlsTruststoreLookupEx (ctx : TlsCtx) (var : Option Mem) (q : Query) : Option SpkiEntry × TlsCtx :=
  if ctx.truststore.status ≠ .ok then (none, ctx)
  else
    match var with
    | none => (none, ctx.setStatus .notFound)
    | some m =>
      match storeFault ctx.truststore m with
      | some status => (none, ctx.setStatus status)
      | none =>
        match q.now with
        | none => (none, ctx.setStatus .timeInvalid)
        | some now =>
          match q.search now (spkiEntries m) with
          | .ok e => (some e, ctx)
          | .error none => (none, ctx)
          | .error (some status) => (none, ctx.setStatus status)

/-! ### One call -/

section Calls

variable {hash : Hash} {pubkey : Bytes} {ctx ctx' : TlsCtx} {var : Option Mem} {m : Mem} {q : Query} {e : SpkiEntry}
  {now : ℕ} {es : List SpkiEntry} {st : TruststoreState} {status : StoreStatus}

lemma tlsTruststoreInit_true (h : tlsTruststoreInit hash pubkey ctx var = (true, ctx')) :
    ∃ m, var = some m ∧ 266 ≤ m.word 0 ∧ m.word 264 = 0 ∧ ctx'.truststore = .ofStore m := by
  cases var with
  | none => cases h
  | some m =>
    unfold tlsTruststoreInit at h
    dsimp only at h
    split_ifs at h with hsize hversion
    · cases h
    · cases h
    · refine ⟨m, rfl, by omega, not_not.1 hversion, ?_⟩
      split at h
      · cases h
      · split at h
        · cases h
        · cases h
          rfl

lemma tlsTruststoreInit_false (h : tlsTruststoreInit hash pubkey ctx var = (false, ctx')) : ctx'.truststore.status ≠ .ok := by
  cases var with
  | none =>
    cases h
    exact nofun
  | some m =>
    unfold tlsTruststoreInit at h
    dsimp only at h
    split_ifs at h with hsize hversion
    · cases h
      exact nofun
    · cases h
      exact nofun
    · split at h
      · cases h
        exact nofun
      · split at h
        · cases h
          exact nofun
        · cases h

lemma exists_tlsTruststoreInit {dSig : Bytes} (hready : ctx.initialized = true) (hsize : 266 ≤ m.word 0)
    (hversion : m.word 264 = 0) (hdecrypt : tlsRsaDecryptSignature (m.read 2 256) pubkey = some dSig)
    (h₁ : 66 ≤ dSig.length) (h₂ : dSig.length ≤ 512)
    (hpss : Pkcs1.pssVerify hash.bytes (hash.bytes (signedPart m)) dSig = true) :
    ∃ ctx', tlsTruststoreInit hash pubkey ctx (some m) = (true, ctx') := by
  obtain ⟨r, hr⟩ : ∃ r, tlsRsaPssVerify hash ctx dSig (hash.bytes (signedPart m)) tlsHashSha256 = r := ⟨_, rfl⟩
  have hfst : r.1 = true := by rw [← hr, tlsRsaPssVerify_fst hready h₁ h₂ (hash.length_bytes _), hpss]
  obtain ⟨b, ctx'⟩ := r
  cases hfst
  unfold tlsTruststoreInit
  dsimp only
  rw [if_neg (by omega), if_neg (not_not.2 hversion), hdecrypt]
  dsimp only
  rw [hr]
  exact ⟨_, rfl⟩

def StoreWf (m : Mem) : Prop := (m.word 0 - 266) % 104 = 0 ∧ m.word 262 = (m.word 0 - 266) / 104

def Query.Passes (q : Query) (now : ℕ) (e : SpkiEntry) : Prop :=
  (q.cfg.checkDates → e.notBefore ≤ now ∧ now ≤ e.notAfter) ∧
    (q.cfg.checkOwner → tlsTruststoreMatchId e.ownerId q.ownerId = true ∧ tlsTruststoreMatchId e.issuerId q.issuerId = true)

lemma search_eq_ok : q.search now es = .ok e ↔ es.find? (·.spkiHash = q.recvdHash.val) = some e ∧ q.Passes now e := by
  induction es with
  | nil => exact ⟨nofun, nofun⟩
  | cons d es ih =>
    unfold Query.search
    by_cases hd : d.spkiHash = q.recvdHash.val
    · rw [List.find?_cons_of_pos (by simpa using hd), some_inj]
      split_ifs with hdates howner
      · refine ⟨nofun, ?_⟩
        rintro ⟨rfl, hpass, -⟩
        have := hpass hdates.1
        omega
      · refine ⟨nofun, ?_⟩
        rintro ⟨rfl, -, hpass⟩
        obtain ⟨h₁, h₂⟩ := hpass howner.1
        rcases howner.2 with h | h
        · rw [h₁] at h
          exact absurd h (by decide)
        · rw [h₂] at h
          exact absurd h (by decide)
      · constructor
        · rintro ⟨⟩
          refine ⟨rfl, fun h => ?_, fun h => ?_⟩
          · by_contra hne
            exact hdates ⟨h, by omega⟩
          · by_contra hne
            refine howner ⟨h, ?_⟩
            rw [Bool.not_eq_true', Bool.not_eq_true', ← Bool.not_eq_true, ← Bool.not_eq_true]
            exact not_and_or.1 hne
        · rintro ⟨rfl, -⟩
          rfl
    · rw [if_neg hd, List.find?_cons_of_neg (by simpa using hd)]
      exact ih

lemma storeFault_ne_ok (h : storeFault st m = some status) : status ≠ .ok := by
  unfold storeFault at h
  split_ifs at h
  all_goals
    cases h
    exact nofun

lemma storeFault_eq_none (hok : st.status = .ok) : storeFault st m = none ↔
    st = .ofStore m ∧ 266 ≤ m.word 0 ∧ m.word 264 = 0 ∧ StoreWf m := by
  have hst : st = .ofStore m ↔
      ¬ (m.word 0 ≠ st.size ∨ m.word 262 ≠ st.entryCount ∨ m.word 264 ≠ st.version ∨ m.dword 258 ≠ st.createdTimestamp) := by
    obtain ⟨status, size, entryCount, version, createdTimestamp⟩ := st
    cases hok
    simp only [ofStore, TruststoreState.mk.injEq, not_or, not_not, true_and]
    simp only [eq_comm]
  unfold storeFault StoreWf
  rw [hst]
  split_ifs with h₁ h₂ h3 h4 h5
  · exact ⟨nofun, fun h => by omega⟩
  · exact ⟨nofun, fun h => absurd h.2.2.1 h₂⟩
  · exact ⟨nofun, fun h => absurd h.2.2.2.1 h3⟩
  · exact ⟨nofun, fun h => absurd h.2.2.2.2 h4⟩
  · exact ⟨nofun, fun h => absurd h5 h.1⟩
  · exact ⟨fun _ => ⟨h5, by omega, not_not.1 h₂, not_not.1 h3, not_not.1 h4⟩, fun _ => rfl⟩

lemma search_ne_ok (h : q.search now es = .error (some status)) : status ≠ .ok := by
  induction es with
  | nil => cases h
  | cons e es ih =>
    unfold Query.search at h
    split_ifs at h
    · cases h
      exact nofun
    · cases h
      exact nofun
    · exact ih h

lemma lookup_eq_some : tlsTruststoreLookupEx ctx var q = (some e, ctx') ↔
    ∃ m now, var = some m ∧ ctx.truststore = .ofStore m ∧ 266 ≤ m.word 0 ∧ m.word 264 = 0 ∧ StoreWf m ∧ q.now = some now ∧
      (spkiEntries m).find? (·.spkiHash = q.recvdHash.val) = some e ∧ q.Passes now e ∧ ctx' = ctx := by
  constructor
  · intro h
    unfold tlsTruststoreLookupEx at h
    split_ifs at h with hok
    · cases h
    · cases var with
      | none => cases h
      | some m =>
        dsimp only at h
        cases hfault : storeFault ctx.truststore m with
        | some status =>
          rw [hfault] at h
          cases h
        | none =>
          obtain ⟨hst, hsize, hversion, hwf⟩ := (storeFault_eq_none (not_not.1 hok)).1 hfault
          rw [hfault] at h
          cases hnow : q.now with
          | none =>
            rw [hnow] at h
            cases h
          | some now =>
            rw [hnow] at h
            dsimp only at h
            cases hsearch : q.search now (spkiEntries m) with
            | error status =>
              rw [hsearch] at h
              cases status <;> cases h
            | ok e' =>
              rw [hsearch] at h
              cases h
              obtain ⟨hfind, hpass⟩ := search_eq_ok.1 hsearch
              exact ⟨m, now, rfl, hst, hsize, hversion, hwf, rfl, hfind, hpass, rfl⟩
  · rintro ⟨m, now, rfl, hst, hsize, hversion, hwf, hnow, hfind, hpass, rfl⟩
    have hok : ctx'.truststore.status = .ok := by rw [hst]; rfl
    have hfault := (storeFault_eq_none hok).2 ⟨hst, hsize, hversion, hwf⟩
    unfold tlsTruststoreLookupEx
    rw [if_neg (not_not.2 hok)]
    dsimp only
    rw [hfault, hnow]
    dsimp only
    rw [search_eq_ok.2 ⟨hfind, hpass⟩]

lemma lookup_none (h : tlsTruststoreLookupEx ctx var q = (none, ctx')) : ctx' = ctx ∨ ctx'.truststore.status ≠ .ok := by
  unfold tlsTruststoreLookupEx at h
  split_ifs at h with hok
  · cases h
    exact .inl rfl
  · cases var with
    | none =>
      cases h
      exact .inr nofun
    | some m =>
      dsimp only at h
      split at h
      · next status hfault =>
        cases h
        exact .inr (storeFault_ne_ok hfault)
      · split at h
        · cases h
          exact .inr nofun
        · split at h
          · cases h
          · cases h
            exact .inl rfl
          · next status hsearch =>
            cases h
            exact .inr (search_ne_ok hsearch)

def paddedId (id : Mem) : Bytes :=
  let s := (id.read 0 32).takeWhile (· ≠ 0)
  s ++ List.replicate (32 - s.length) 0

lemma matchId_iff {entryId : Bytes} (h : entryId.length = 32) (id : Option Mem) :
    tlsTruststoreMatchId entryId id = true ↔ id.map paddedId = some entryId := by
  cases id with
  | none => exact ⟨nofun, nofun⟩
  | some id =>
    have hread : id.read 0 ((id.read 0 32).takeWhile (· ≠ 0)).length = (id.read 0 32).takeWhile (· ≠ 0) := by
      obtain ⟨str, hstr⟩ : ∃ str, (id.read 0 32).takeWhile (· ≠ 0) = str := ⟨_, rfl⟩
      have hprefix : str <+: id.read 0 32 := hstr ▸ takeWhile_prefix _
      have hlen : 0 + str.length ≤ 32 := by simpa using hprefix.length_le
      rw [hstr]
      exact (read_part rfl hlen).trans (prefix_iff_eq_take.1 hprefix).symm
    unfold tlsTruststoreMatchId paddedId
    dsimp only [map_some]
    rw [hread, decide_eq_true_iff, some_inj]
    generalize (id.read 0 32).takeWhile (· ≠ 0) = str
    constructor
    · rintro ⟨htake, hzeros⟩
      have hrep : entryId.drop str.length = replicate (32 - str.length) 0 := by
        refine eq_replicate_iff.2 ⟨by rw [length_drop, h], fun b hb => ?_⟩
        simpa using all_eq_true.1 hzeros b hb
      rw [← hrep]
      exact (congrArg (· ++ _) htake.symm).trans (take_append_drop _ _)
    · rintro rfl
      simp

def Query.Matches (q : Query) (e : SpkiEntry) : Prop :=
  e.spkiHash = q.recvdHash.val ∧
    (q.cfg.checkDates = true → ∃ now, tlsTruststoreGetUtc q.cfg q.clock = some now ∧ e.notBefore ≤ now ∧ now ≤ e.notAfter) ∧
    (q.cfg.checkOwner = true → q.ownerId.map paddedId = some e.ownerId ∧ q.issuerId.map paddedId = some e.issuerId)

lemma matches_iff (h : e.length = 104) : q.Matches e ↔ e.spkiHash = q.recvdHash.val ∧ ∃ now, q.now = some now ∧ q.Passes now e := by
  have howner : e.ownerId.length = 32 := by rw [SpkiEntry.ownerId, length_take, h]; rfl
  have hissuer : e.issuerId.length = 32 := by rw [SpkiEntry.issuerId, length_take, length_drop, h]; rfl
  unfold Query.Matches Query.Passes Query.now
  rw [matchId_iff howner, matchId_iff hissuer]
  refine and_congr_right fun _ => ?_
  cases q.cfg.checkDates with
  | false =>
    constructor
    · intro h
      exact ⟨0, rfl, fun h => absurd h Bool.false_ne_true, h.2⟩
    · rintro ⟨now, -, h⟩
      exact ⟨fun h => absurd h Bool.false_ne_true, h.2⟩
  | true =>
    constructor
    · rintro ⟨hdates, howner⟩
      obtain ⟨now, hnow, hvalid⟩ := hdates rfl
      exact ⟨now, hnow, fun _ => hvalid, howner⟩
    · rintro ⟨now, hnow, hvalid, howner⟩
      exact ⟨fun h => ⟨now, hnow, hvalid h⟩, howner⟩

lemma length_of_mem_spkiEntries (h : e ∈ spkiEntries m) : e.length = 104 := by
  obtain ⟨i, -, rfl⟩ := mem_map.1 h
  exact length_read ..

lemma lookup_eq (hinit : tlsTruststoreInit hash pubkey ctx (some m) = (true, ctx')) :
    (tlsTruststoreLookupEx ctx' (some m) q).1 = some e ↔
      StoreWf m ∧ (spkiEntries m).find? (·.spkiHash = q.recvdHash.val) = some e ∧ q.Matches e := by
  obtain ⟨m', hm', hsize, hversion, hst⟩ := tlsTruststoreInit_true hinit
  cases hm'
  constructor
  · intro he
    obtain ⟨m', now, hm', -, -, -, hwf, hnow, hfind, hpass, -⟩ := lookup_eq_some.1 (Prod.ext he rfl)
    cases hm'
    have hmem := mem_of_find?_eq_some hfind
    refine ⟨hwf, hfind, (matches_iff (length_of_mem_spkiEntries hmem)).2 ⟨?_, now, hnow, hpass⟩⟩
    simpa using List.find?_some hfind
  · rintro ⟨hwf, hfind, hmatch⟩
    have hmem := mem_of_find?_eq_some hfind
    obtain ⟨-, now, hnow, hpass⟩ := (matches_iff (length_of_mem_spkiEntries hmem)).1 hmatch
    have h := lookup_eq_some.2 ⟨m, now, rfl, hst, hsize, hversion, hwf, hnow, hfind, hpass, rfl⟩
    rw [h]

/-- **When the truststore lookup is "any entry matches".** -/
theorem lookup_any_iff (hinit : tlsTruststoreInit hash pubkey ctx (some m) = (true, ctx')) (q : Query) :
    (((tlsTruststoreLookupEx ctx' (some m) q).1.isSome = true ↔ ∃ e ∈ spkiEntries m, q.Matches e) ∧
      ∀ e, (tlsTruststoreLookupEx ctx' (some m) q).1 = some e → e ∈ spkiEntries m ∧ q.Matches e) ↔
    ((∃ e ∈ spkiEntries m, q.Matches e) →
      StoreWf m ∧ ∀ e, (spkiEntries m).find? (·.spkiHash = q.recvdHash.val) = some e → q.Matches e) := by
  have hsome : ∀ {e}, (tlsTruststoreLookupEx ctx' (some m) q).1 = some e ↔ _ := lookup_eq hinit
  rw [isSome_iff_exists]
  constructor
  · rintro ⟨hiff, -⟩ hex
    obtain ⟨e, he⟩ := hiff.2 hex
    obtain ⟨hwf, hfind, hmatch⟩ := hsome.1 he
    refine ⟨hwf, fun e' he' => ?_⟩
    cases hfind.symm.trans he'
    exact hmatch
  · intro hcond
    have hsound : ∀ e, (tlsTruststoreLookupEx ctx' (some m) q).1 = some e → e ∈ spkiEntries m ∧ q.Matches e := by
      intro e he
      obtain ⟨-, hfind, hmatch⟩ := hsome.1 he
      exact ⟨mem_of_find?_eq_some hfind, hmatch⟩
    refine ⟨⟨fun ⟨e, he⟩ => ⟨e, hsound e he⟩, fun hex => ?_⟩, hsound⟩
    obtain ⟨hwf, hfirst⟩ := hcond hex
    obtain ⟨e, hmem, hmatch⟩ := hex
    cases hfind : (spkiEntries m).find? (·.spkiHash = q.recvdHash.val) with
    | none => exact absurd hmatch.1 (by simpa using List.find?_eq_none.1 hfind e hmem)
    | some e' => exact ⟨e', hsome.2 ⟨hwf, hfind, hfirst e' hfind⟩⟩

/-- A lookup that is not rejected: the time is known where it is needed, and an entry with the hash passes the checks. -/
def Query.Harmless (q : Query) (m : Mem) : Prop :=
  ∃ now, q.now = some now ∧ ∀ e, (spkiEntries m).find? (·.spkiHash = q.recvdHash.val) = some e → q.Passes now e

lemma search_eq_none : q.search now es = .error none ↔ es.find? (·.spkiHash = q.recvdHash.val) = none := by
  induction es with
  | nil => exact ⟨fun _ => rfl, fun _ => rfl⟩
  | cons d es ih =>
    unfold Query.search
    by_cases hd : d.spkiHash = q.recvdHash.val
    · rw [List.find?_cons_of_pos (by simpa using hd)]
      split_ifs <;> exact ⟨nofun, nofun⟩
    · rw [if_neg hd, List.find?_cons_of_neg (by simpa using hd)]
      exact ih

lemma lookup_snd (hok : ctx.truststore.status = .ok) (hfault : storeFault ctx.truststore m = none) :
    (q.Harmless m → (tlsTruststoreLookupEx ctx (some m) q).2 = ctx) ∧
      (¬ q.Harmless m → (tlsTruststoreLookupEx ctx (some m) q).2.truststore.status ≠ .ok) := by
  unfold tlsTruststoreLookupEx
  rw [if_neg (not_not.2 hok)]
  dsimp only
  rw [hfault]
  cases hnow : q.now with
  | none =>
    refine ⟨?_, fun _ => nofun⟩
    rintro ⟨now, h, -⟩
    cases hnow.symm.trans h
  | some now =>
    dsimp only
    cases hsearch : q.search now (spkiEntries m) with
    | ok e =>
      refine ⟨fun _ => rfl, fun h => absurd ⟨now, hnow, fun e' he' => ?_⟩ h⟩
      obtain ⟨he, hpass⟩ := search_eq_ok.1 hsearch
      cases he.symm.trans he'
      exact hpass
    | error status =>
      cases status with
      | none =>
        refine ⟨fun _ => rfl, fun h => absurd ⟨now, hnow, fun e he => ?_⟩ h⟩
        cases (search_eq_none.1 hsearch).symm.trans he
      | some status =>
        refine ⟨?_, fun _ => search_ne_ok hsearch⟩
        rintro ⟨now', hnow', h⟩
        cases hnow.symm.trans hnow'
        cases hfind : (spkiEntries m).find? (·.spkiHash = q.recvdHash.val) with
        | none => cases hsearch.symm.trans (search_eq_none.2 hfind)
        | some e => cases hsearch.symm.trans (search_eq_ok.2 ⟨hfind, h e hfind⟩)

def lookups (m : Mem) (ctx : TlsCtx) (qs : List Query) : TlsCtx := qs.foldl (fun ctx q => (tlsTruststoreLookupEx ctx (some m) q).2) ctx

lemma lookups_refused (h : ctx.truststore.status ≠ .ok) (qs : List Query) : lookups m ctx qs = ctx := by
  induction qs with
  | nil => rfl
  | cons q qs ih =>
    have hq : (tlsTruststoreLookupEx ctx (some m) q).2 = ctx := by rw [tlsTruststoreLookupEx, if_pos h]
    exact (congrArg (lookups m · qs) hq).trans ih

lemma lookups_snd (hok : ctx.truststore.status = .ok) (hfault : storeFault ctx.truststore m = none) (qs : List Query) :
    ((∀ q ∈ qs, q.Harmless m) → lookups m ctx qs = ctx) ∧
      ((∃ q ∈ qs, ¬ q.Harmless m) → (lookups m ctx qs).truststore.status ≠ .ok) := by
  induction qs with
  | nil => exact ⟨fun _ => rfl, fun ⟨_, h, _⟩ => absurd h not_mem_nil⟩
  | cons q qs ih =>
    have hstep : lookups m ctx (q :: qs) = lookups m (tlsTruststoreLookupEx ctx (some m) q).2 qs := rfl
    obtain ⟨hkeep, hreject⟩ := lookup_snd hok hfault
    rw [forall_mem_cons, exists_mem_cons_iff, hstep]
    by_cases hq : q.Harmless m
    · rw [hkeep hq]
      exact ⟨fun h => ih.1 h.2, fun h => ih.2 (h.resolve_left (not_not.2 hq))⟩
    · rw [lookups_refused (hreject hq)]
      exact ⟨fun h => absurd h.1 hq, fun _ => hreject hq⟩

/-- **When lookups are independent** of those before them. -/
theorem lookups_independent_iff (hinit : tlsTruststoreInit hash pubkey ctx (some m) = (true, ctx')) (qs : List Query) :
    (∀ q, (tlsTruststoreLookupEx (lookups m ctx' qs) (some m) q).1 = (tlsTruststoreLookupEx ctx' (some m) q).1) ↔
      (StoreWf m → spkiEntries m ≠ [] → ∀ q ∈ qs, q.Harmless m) := by
  obtain ⟨m', hm', hsize, hversion, hst⟩ := tlsTruststoreInit_true hinit
  cases hm'
  have hok : ctx'.truststore.status = .ok := by rw [hst]; rfl
  have hboth := fun hwf => lookups_snd hok ((storeFault_eq_none hok).2 ⟨hst, hsize, hversion, hwf⟩) qs
  constructor
  · intro h hwf hne
    by_contra hnot
    simp only [not_forall, exists_prop] at hnot
    obtain ⟨e, es, hes⟩ := exists_cons_of_ne_nil hne
    -- a lookup of the first entry without the checks
    have hoff : ¬ AppConfig.checkDates ⟨0, 0, false⟩ = true ∧ ¬ AppConfig.checkOwner ⟨0, 0, false⟩ = true := by decide
    have hlen : e.spkiHash.length = 32 := by
      rw [SpkiEntry.spkiHash, length_drop, length_of_mem_spkiEntries (by rw [hes]; exact mem_cons_self)]
    have he := (lookup_eq (q := ⟨⟨0, 0, false⟩, ⟨1, 1, 2000, 0, 0, 0⟩, ⟨e.spkiHash, hlen⟩, none, none⟩) hinit).2
      ⟨hwf, by rw [hes]; exact List.find?_cons_of_pos (by simp), rfl, fun h => absurd h hoff.1, fun h => absurd h hoff.2⟩
    rw [← h, tlsTruststoreLookupEx, if_pos ((hboth hwf).2 hnot)] at he
    cases he
  · intro h q
    have hnone : ¬ (StoreWf m ∧ spkiEntries m ≠ []) → ∀ ctx, (tlsTruststoreLookupEx ctx (some m) q).1 = none := by
      intro hnot ctx
      refine eq_none_iff_forall_ne_some.2 fun e he => hnot ?_
      obtain ⟨m', now, hm', -, -, -, hwf, -, hfind, -⟩ := lookup_eq_some.1 (Prod.ext he rfl)
      cases hm'
      exact ⟨hwf, ne_nil_of_mem (mem_of_find?_eq_some hfind)⟩
    by_cases hall : StoreWf m ∧ spkiEntries m ≠ []
    · rw [(hboth hall.1).1 (h hall.1 hall.2)]
    · rw [hnone hall, hnone hall]

end Calls

/-! A small store: two entries with one hash, the first of which has never been valid. -/

def storeSignature : Bytes :=
  [0x46, 0x50, 0xe5, 0x2c, 0x12, 0x49, 0x6e, 0x81, 0x44, 0x21, 0xc, 0x42, 0xef, 0x99, 0x6, 0xe6,
    0x88, 0x4f, 0x10, 0x22, 0xae, 0x48, 0x2e, 0xca, 0xb, 0x7f, 0x16, 0xb0, 0x86, 0x93, 0x5a, 0x54,
    0x3a, 0xe8, 0x55, 0x6, 0xd4, 0x8f, 0x3, 0x94, 0xe5, 0x89, 0x78, 0x2f, 0x1b, 0x29, 0xe7, 0x91,
    0xdd, 0xf3, 0x9d, 0xd0, 0x7c, 0xb7, 0xf0, 0xc3, 0x8d, 0x4e, 0x13, 0x7f, 0xfc, 0xe5, 0xe2, 0x32,
    0xa4, 0x78, 0xb0, 0x1e, 0x2c, 0x21, 0x67, 0x70, 0xf8, 0xf4, 0x79, 0x80, 0x5c, 0xb, 0x3a, 0x15,
    0x2b, 0x4e, 0x1f, 0xfc, 0x9a, 0x85, 0x65, 0xb2, 0xaf, 0xc4, 0x5a, 0xab, 0x9d, 0x1d, 0x17, 0xd1,
    0xd8, 0x31, 0x7d, 0xbd, 0x3f, 0x53, 0x36, 0x9c, 0xf2, 0x1e, 0xa4, 0x4b, 0x1b, 0xe8, 0xb6, 0xea,
    0x6c, 0x9a, 0x54, 0xba, 0x73, 0xaa, 0x1c, 0xb3, 0xb5, 0xd7, 0x25, 0xde, 0xf9, 0x2, 0x33, 0x6e,
    0xff, 0x7a, 0x23, 0x85, 0xec, 0x7d, 0x32, 0xcc, 0x1c, 0xf, 0x66, 0x3e, 0xed, 0xd, 0x7d, 0x48,
    0xfb, 0x80, 0x8f, 0xe7, 0x3, 0xe9, 0x82, 0x8e, 0x87, 0xd, 0x1, 0x30, 0xf5, 0x1a, 0xa1, 0x5c,
    0xd7, 0x7, 0xbe, 0x0, 0x47, 0x80, 0xe3, 0x5e, 0x7d, 0x7b, 0x6b, 0xf3, 0x34, 0x23, 0x47, 0xf7,
    0xee, 0xc7, 0x3, 0xa2, 0x13, 0x24, 0xcd, 0x21, 0x22, 0x4c, 0x49, 0xb3, 0xd7, 0x39, 0x86, 0x1,
    0xfc, 0xfa, 0xb8, 0x6d, 0xc1, 0x8f, 0xd7, 0x5d, 0x4c, 0x2d, 0x43, 0xc9, 0x88, 0x47, 0x38, 0x75,
    0x49, 0x8c, 0x8a, 0xed, 0x30, 0x1d, 0x76, 0x7e, 0x4c, 0x6d, 0xeb, 0x6, 0xb2, 0xe1, 0x30, 0x82,
    0xac, 0x6c, 0xa8, 0xd6, 0xfc, 0x22, 0x76, 0xf7, 0x79, 0x48, 0x57, 0x86, 0x5d, 0x3f, 0x64, 0x75,
    0x33, 0xdd, 0x84, 0xc8, 0x92, 0xf8, 0x5e, 0x93, 0xae, 0x95, 0x1, 0xc3, 0x17, 0xd2, 0x86, 0xbc]

def storeKey : Bytes := storeSignature.take 255 ++ [0xbd]

def bareEntry (notAfter : Bytes) (b : UInt8) : SpkiEntry := List.replicate 68 0 ++ notAfter ++ List.replicate 32 b

def storeWith (e₁ e₂ : SpkiEntry) : Mem :=
  .ofBytes (le16 474 ++ (storeSignature ++ ((le32 0 ++ (le16 2 ++ le16 0)) ++ (e₁ ++ e₂))))

def twoEntries : Mem := storeWith (bareEntry [0, 0, 0, 0] 0xaa) (bareEntry [0xff, 0xff, 0xff, 0xff] 0xaa)

def lookupAt (flags b : UInt8) : Query := ⟨⟨flags, 0, false⟩, ⟨1, 1, 2000, 0, 0, 0⟩, ⟨List.replicate 32 b, List.length_replicate⟩, none, none⟩

lemma length_storeSignature : storeSignature.length = 256 := by decide +kernel

lemma decrypt_storeSignature : tlsRsaDecryptSignature storeSignature storeKey = some storeSignature := by
  have hkey : beNat storeKey = beNat storeSignature + 1 := by decide +kernel
  have hbytes : be 256 (beNat storeSignature) = storeSignature := by decide +kernel
  have hok : ¬ (storeSignature.length = 0 ∨ storeKey.length > 512 ∨ storeKey.length < 128 ∨
    storeKey.getD (storeKey.length - 1) 0 &&& 1 = 0) := by decide +kernel
  have hlen : storeKey.length = 256 := by decide +kernel
  have hall : storeSignature.take storeKey.length = storeSignature := by decide +kernel
  unfold tlsRsaDecryptSignature
  rw [if_neg hok, hall, hlen, powmodExpU24_eq (by decide) (by decide) length_storeSignature hlen, hkey,
    show 65537 = 2 * 32768 + 1 by rfl, pow_odd_mod_succ, hbytes]

section StoreWith

variable {e₁ e₂ : SpkiEntry} (h₁ : e₁.length = 104) (h₂ : e₂.length = 104)
include h₁ h₂

lemma read_storeWith : (storeWith e₁ e₂).read 0 2 = le16 474 ∧ (storeWith e₁ e₂).read 2 256 = storeSignature ∧
    (storeWith e₁ e₂).read 258 8 = le32 0 ++ (le16 2 ++ le16 0) ∧ (storeWith e₁ e₂).read 266 208 = e₁ ++ e₂ := by
  have hall : (storeWith e₁ e₂).read 0 474 = le16 474 ++ (storeSignature ++ ((le32 0 ++ (le16 2 ++ le16 0)) ++ (e₁ ++ e₂))) := by
    have hlen : (le16 474 ++ (storeSignature ++ ((le32 0 ++ (le16 2 ++ le16 0)) ++ (e₁ ++ e₂)))).length = 474 := by
      simp only [length_append, length_storeSignature, h₁, h₂]
      rfl
    refine (read_ofBytes (by omega)).trans ?_
    rw [drop_zero, take_of_length_le (by omega)]
  obtain ⟨hsize, hrest⟩ := read_append _ _ hall
  obtain ⟨hsig, hrest⟩ := read_append _ _ hrest
  obtain ⟨hheader, hentries⟩ := read_append _ _ hrest
  have hlen : (e₁ ++ e₂).length = 208 := by rw [length_append, h₁, h₂]
  rw [length_storeSignature] at hsig hheader hentries
  rw [hlen] at hentries
  exact ⟨hsize, hsig, hheader, hentries⟩

lemma ofStore_storeWith : ofStore (storeWith e₁ e₂) = ⟨.ok, 474, 2, 0, 0⟩ := by
  obtain ⟨hsize, -, hheader, -⟩ := read_storeWith h₁ h₂
  obtain ⟨htime, hrest⟩ := read_append _ _ hheader
  obtain ⟨hcount, hversion⟩ := read_append _ _ hrest
  unfold ofStore
  rw [dword_of_read htime]
  have hcount' : (storeWith e₁ e₂).word 262 = 2 := word_of_read hcount
  have hversion' : (storeWith e₁ e₂).word 264 = 0 := word_of_read hversion
  rw [hcount']
  rfl

lemma word_storeWith : (storeWith e₁ e₂).word 0 = 474 ∧ (storeWith e₁ e₂).word 262 = 2 ∧ (storeWith e₁ e₂).word 264 = 0 := by
  have h := ofStore_storeWith h₁ h₂
  exact ⟨congrArg size h, congrArg entryCount h, congrArg version h⟩

lemma signedPart_storeWith : signedPart (storeWith e₁ e₂) = (le32 0 ++ (le16 2 ++ le16 0)) ++ (e₁ ++ e₂) := by
  obtain ⟨-, -, hheader, hentries⟩ := read_storeWith h₁ h₂
  rw [signedPart, (word_storeWith h₁ h₂).1]
  exact (read_add _ 258 8 208).trans (by rw [hheader, hentries])

lemma spkiEntries_storeWith : spkiEntries (storeWith e₁ e₂) = [e₁, e₂] := by
  obtain ⟨-, -, -, hentries⟩ := read_storeWith h₁ h₂
  obtain ⟨hfirst, hsecond⟩ := read_append _ _ hentries
  rw [h₁] at hfirst
  rw [h₁, h₂] at hsecond
  rw [spkiEntries, (word_storeWith h₁ h₂).1]
  change [(storeWith e₁ e₂).read 266 104, (storeWith e₁ e₂).read (266 + 104) 104] = _
  rw [hfirst, hsecond]

end StoreWith

def readyCtx : TlsCtx := (TlsCtx.initial.tlsInit (some fun _ => 0) (some fun _ => 0)).2

lemma spkiEntries_twoEntries : spkiEntries twoEntries = [bareEntry [0, 0, 0, 0] 0xaa, bareEntry [0xff, 0xff, 0xff, 0xff] 0xaa] :=
  spkiEntries_storeWith rfl rfl

lemma init_twoEntries : ∃ ctx', tlsTruststoreInit sha256 storeKey readyCtx (some twoEntries) = (true, ctx') := by
  have hpss : Pkcs1.pssVerify sha256.bytes (sha256.bytes ((le32 0 ++ (le16 2 ++ le16 0)) ++
    (bareEntry [0, 0, 0, 0] 0xaa ++ bareEntry [0xff, 0xff, 0xff, 0xff] 0xaa))) storeSignature = true := by decide +kernel
  rw [← signedPart_storeWith rfl rfl] at hpss
  have hlen := length_storeSignature
  obtain ⟨hsize, -, hversion⟩ : twoEntries.word 0 = 474 ∧ twoEntries.word 262 = 2 ∧ twoEntries.word 264 = 0 :=
    word_storeWith rfl rfl
  have hsig : twoEntries.read 2 256 = storeSignature := (read_storeWith rfl rfl).2.1
  have hdecrypt : tlsRsaDecryptSignature (twoEntries.read 2 256) storeKey = some storeSignature := by
    rw [hsig, decrypt_storeSignature]
  exact exists_tlsTruststoreInit rfl (by omega) hversion hdecrypt (by omega) (by omega) hpss

lemma storeWf_twoEntries : StoreWf twoEntries := by
  obtain ⟨hsize, hcount, -⟩ : twoEntries.word 0 = 474 ∧ twoEntries.word 262 = 2 ∧ twoEntries.word 264 = 0 := word_storeWith rfl rfl
  unfold StoreWf
  decide

lemma find_twoEntries (flags : UInt8) : (spkiEntries twoEntries).find? (·.spkiHash = (lookupAt flags 0xaa).recvdHash.val) =
    some (bareEntry [0, 0, 0, 0] 0xaa) := by
  rw [spkiEntries_twoEntries]
  exact List.find?_cons_of_pos (decide_eq_true rfl)

lemma now_lookupAt : tlsTruststoreGetUtc ⟨0x20, 0, false⟩ ⟨1, 1, 2000, 0, 0, 0⟩ = some 946684800 := by decide +kernel

lemma expired_twoEntries : (bareEntry [0, 0, 0, 0] 0xaa).notAfter < 946684800 := by decide +kernel

theorem lookup_any_unchecked : ∃ ctx', tlsTruststoreInit sha256 storeKey readyCtx (some twoEntries) = (true, ctx') ∧
    (tlsTruststoreLookupEx ctx' (some twoEntries) (lookupAt 0 0xaa)).1.isSome = true := by
  obtain ⟨ctx', hinit⟩ := init_twoEntries
  have hmatch : ∀ e ∈ spkiEntries twoEntries, (lookupAt 0 0xaa).Matches e := by
    rw [spkiEntries_twoEntries]
    intro e he
    have hhash : e.spkiHash = replicate 32 0xaa := by
      rcases mem_pair.1 he with rfl | rfl <;> rfl
    exact ⟨hhash, nofun, nofun⟩
  have hmem : bareEntry [0, 0, 0, 0] 0xaa ∈ spkiEntries twoEntries := by
    rw [spkiEntries_twoEntries]
    exact mem_cons_self
  have h := (lookup_any_iff hinit (lookupAt 0 0xaa)).2 fun _ => ⟨storeWf_twoEntries, fun e he => hmatch e (mem_of_find?_eq_some he)⟩
  exact ⟨ctx', hinit, h.1.2 ⟨_, hmem, hmatch _ hmem⟩⟩

/-- The second entry matches, and the lookup returns false because of the first one. -/
theorem lookup_stops_at_first : ∃ ctx', tlsTruststoreInit sha256 storeKey readyCtx (some twoEntries) = (true, ctx') ∧
    (tlsTruststoreLookupEx ctx' (some twoEntries) (lookupAt 0x20 0xaa)).1 = none ∧
    ∃ e ∈ spkiEntries twoEntries, (lookupAt 0x20 0xaa).Matches e := by
  obtain ⟨ctx', hinit⟩ := init_twoEntries
  have hold := expired_twoEntries
  have hvalid : (bareEntry [0xff, 0xff, 0xff, 0xff] 0xaa).notBefore ≤ 946684800 ∧
    946684800 ≤ (bareEntry [0xff, 0xff, 0xff, 0xff] 0xaa).notAfter := by decide +kernel
  refine ⟨ctx', hinit, ?_, bareEntry [0xff, 0xff, 0xff, 0xff] 0xaa, ?_, rfl, fun _ => ⟨_, now_lookupAt, hvalid⟩, nofun⟩
  · rw [eq_none_iff_forall_ne_some]
    intro e he
    obtain ⟨-, hfind, hmatch⟩ := (lookup_eq hinit).1 he
    cases (find_twoEntries 0x20).symm.trans hfind
    obtain ⟨now, hnow, -, hle⟩ := hmatch.2.1 (by decide)
    cases now_lookupAt.symm.trans hnow
    omega
  · rw [spkiEntries_twoEntries]
    exact mem_cons_of_mem _ mem_cons_self

/-- A lookup finds the entry, and no longer does once it has been rejected as expired. -/
theorem lookups_disabled : ∃ ctx', tlsTruststoreInit sha256 storeKey readyCtx (some twoEntries) = (true, ctx') ∧
    (tlsTruststoreLookupEx ctx' (some twoEntries) (lookupAt 0 0xaa)).1.isSome = true ∧
    (tlsTruststoreLookupEx (lookups twoEntries ctx' [lookupAt 0x20 0xaa]) (some twoEntries) (lookupAt 0 0xaa)).1 = none := by
  obtain ⟨ctx', hinit⟩ := init_twoEntries
  obtain ⟨m, hm, hsize, hversion, hst⟩ := tlsTruststoreInit_true hinit
  cases hm
  have hok : ctx'.truststore.status = .ok := by rw [hst]; rfl
  have hfault := (storeFault_eq_none hok).2 ⟨hst, hsize, hversion, storeWf_twoEntries⟩
  have hold := expired_twoEntries
  refine ⟨ctx', hinit, isSome_iff_exists.2 ⟨_, (lookup_eq hinit).2 ⟨storeWf_twoEntries, find_twoEntries 0, rfl, nofun, nofun⟩⟩, ?_⟩
  rw [tlsTruststoreLookupEx, if_pos ((lookups_snd hok hfault _).2 ⟨_, mem_singleton_self _, ?_⟩)]
  rintro ⟨now, hnow, h⟩
  cases now_lookupAt.symm.trans hnow
  have := (h _ (find_twoEntries 0x20)).1 (by decide)
  omega

theorem lookups_independent_unchecked : ∃ ctx', tlsTruststoreInit sha256 storeKey readyCtx (some twoEntries) = (true, ctx') ∧
    ∀ q, (tlsTruststoreLookupEx (lookups twoEntries ctx' [lookupAt 0 0xaa]) (some twoEntries) q).1 =
      (tlsTruststoreLookupEx ctx' (some twoEntries) q).1 := by
  obtain ⟨ctx', hinit⟩ := init_twoEntries
  refine ⟨ctx', hinit, (lookups_independent_iff hinit _).2 fun _ _ q hq => ?_⟩
  cases mem_singleton.1 hq
  exact ⟨0, rfl, fun _ _ => ⟨nofun, nofun⟩⟩

/-! ### Runs -/

/-- The context and the AppVar.  `verified` is what the last successful `tls_truststore_init` verified, and `granted` has the
entries that lookups returned true for, each with what was verified then. -/
structure TrustSys where
  ctx : TlsCtx
  appvar : Option Mem
  verified : Option Bytes
  granted : List (SpkiEntry × Option Bytes)

/-- What can happen: the calls, and another program that changes the AppVar, or deletes it. -/
inductive TrustEvent
  | init
  | replace (content : Option Mem)
  | lookup (q : Query)

namespace TrustSys

def start (rsa ecc : Option Mem) (appvar : Option Mem) : TrustSys := ⟨(TlsCtx.initial.tlsInit rsa ecc).2, appvar, none, []⟩

section Runs

variable (hash : Hash) (pubkey : Bytes)

def step (s : TrustSys) : TrustEvent → Option TrustSys
  | .init =>
    match tlsTruststoreInit hash pubkey s.ctx s.appvar with
    | (true, ctx) => some { s with ctx := ctx, verified := s.appvar.map signedPart }
    | (false, ctx) => some { s with ctx := ctx }
  | .replace content => some { s with appvar := content }
  | .lookup q =>
    match tlsTruststoreLookupEx s.ctx s.appvar q with
    | (some e, ctx) => some { s with ctx := ctx, granted := (e, s.verified) :: s.granted }
    | (none, ctx) => some { s with ctx := ctx }

end Runs

def IsEntry (v : Bytes) (e : SpkiEntry) : Prop := ∃ i, 8 + 104 * (i + 1) ≤ v.length ∧ e = (v.drop (8 + 104 * i)).take 104

def OnlyVerified (s : TrustSys) : Prop := ∀ g ∈ s.granted, ∃ v, g.2 = some v ∧ IsEntry v g.1

/-- What replaces an accepted store keeps the header and the entries, or not the data that were recorded: the size, the number of
the entries, the version and the time. -/
def Keeps (s : TrustSys) : TrustEvent → Prop
  | .replace (some m) => s.ctx.truststore = .ofStore m → s.verified = some (signedPart m)
  | _ => True

def Current (s : TrustSys) : Prop := ∀ m, s.appvar = some m → s.ctx.truststore = .ofStore m → s.verified = some (signedPart m)

variable {hash : Hash} {pubkey : Bytes} {s s' : TrustSys} {m : Mem} {ctx ctx' : TlsCtx} {e : TrustEvent}

lemma isEntry_of_mem {e : SpkiEntry} (h : e ∈ spkiEntries m) : IsEntry (signedPart m) e := by
  obtain ⟨i, hi, rfl⟩ := mem_map.1 h
  have hlt := mem_range.1 hi
  have hfit : 8 + 104 * i + 104 ≤ m.word 0 - 258 := by omega
  refine ⟨i, by rw [signedPart, length_read]; omega, ?_⟩
  have hpart := read_part (show m.read 258 (m.word 0 - 258) = signedPart m from rfl) hfit
  rw [← hpart, ← Nat.add_assoc]

lemma not_ofStore {st : TruststoreState} (h : st.status ≠ .ok) (m : Mem) : st ≠ .ofStore m := by
  rintro rfl
  exact h rfl

lemma step_current (hcur : s.Current) (hkeep : s.Keeps e) (h : s.step hash pubkey e = some s') : s'.Current := by
  cases e with
  | init =>
    unfold step at h
    dsimp only at h
    split at h
    · cases h
      intro m hm _
      exact congrArg (Option.map signedPart) hm
    · next ctx hinit =>
      cases h
      intro m _ hst
      exact absurd hst (not_ofStore (tlsTruststoreInit_false hinit) m)
  | replace content =>
    cases h
    rintro m rfl hst
    exact hkeep hst
  | lookup q =>
    unfold step at h
    dsimp only at h
    split at h
    · next e ctx hlookup =>
      cases h
      obtain ⟨_, _, -, -, -, -, -, -, -, -, rfl⟩ := lookup_eq_some.1 hlookup
      exact hcur
    · next ctx hlookup =>
      cases h
      rcases lookup_none hlookup with rfl | hne
      · exact hcur
      · intro m _ hst
        exact absurd hst (not_ofStore hne m)

lemma step_onlyVerified (hcur : s.Current) (hall : s.OnlyVerified) (h : s.step hash pubkey e = some s') : s'.OnlyVerified := by
  cases e with
  | init =>
    unfold step at h
    dsimp only at h
    split at h
    · cases h
      exact hall
    · cases h
      exact hall
  | replace content =>
    cases h
    exact hall
  | lookup q =>
    unfold step at h
    dsimp only at h
    split at h
    · next e ctx hlookup =>
      cases h
      obtain ⟨m, _, hm, hst, -, -, -, -, hfind, -, -⟩ := lookup_eq_some.1 hlookup
      intro g hg
      rcases mem_cons.1 hg with rfl | hg
      · exact ⟨signedPart m, hcur m hm hst, isEntry_of_mem (mem_of_find?_eq_some hfind)⟩
      · exact hall g hg
    · cases h
      exact hall

/-- **Only verified entries are trusted**, as long as what replaces an accepted store keeps its header and its entries or
differs in the recorded data. -/
theorem trusted_of_kept {rsa ecc appvar : Option Mem} {es : List TrustEvent}
    (hkeep : Along Keeps (step hash pubkey) (start rsa ecc appvar) es)
    (hrun : run (step hash pubkey) (start rsa ecc appvar) es = some s) : s.OnlyVerified := by
  have hstart : (start rsa ecc appvar).Current ∧ (start rsa ecc appvar).OnlyVerified := by
    refine ⟨fun m _ hst => ?_, nofun⟩
    have hblank : (start rsa ecc appvar).ctx.truststore = .blank := by
      cases rsa <;> cases ecc <;> rfl
    rw [hblank] at hst
    cases hst
  refine (run_inv_along (fun s => s.Current ∧ s.OnlyVerified) ?_ hstart hkeep hrun).2
  intro s e s' hs hkeep hstep
  exact ⟨step_current hs.1 hkeep hstep, step_onlyVerified hs.1 hs.2 hstep⟩

lemma step_init (hinit : tlsTruststoreInit hash pubkey ctx (some m) = (true, ctx')) :
    step hash pubkey ⟨ctx, some m, none, []⟩ .init = some ⟨ctx', some m, some (signedPart m), []⟩ := by
  simp only [step, hinit, map_some]

lemma run_replaced {m' : Mem} {q : Query} {e : SpkiEntry} (hinit : tlsTruststoreInit hash pubkey ctx (some m) = (true, ctx'))
    (hlookup : tlsTruststoreLookupEx ctx' (some m') q = (some e, ctx')) :
    run (step hash pubkey) ⟨ctx, some m, none, []⟩ [.init, .replace (some m'), .lookup q] =
      some ⟨ctx', some m', some (signedPart m), [(e, some (signedPart m))]⟩ := by
  refine run_cons_some.2 ⟨_, step_init hinit, ?_⟩
  simp only [run, step, hlookup, bind_some]

lemma lookup_storeWith {e₁ e₂ : SpkiEntry} {b : UInt8} (h₁ : e₁.length = 104) (h₂ : e₂.length = 104)
    (hb : e₁.spkiHash = replicate 32 b) (hinit : tlsTruststoreInit hash pubkey ctx (some twoEntries) = (true, ctx')) :
    tlsTruststoreLookupEx ctx' (some (storeWith e₁ e₂)) (lookupAt 0 b) = (some e₁, ctx') := by
  obtain ⟨m, hm, -, -, hst⟩ := tlsTruststoreInit_true hinit
  cases hm
  have hrecorded : ctx'.truststore = .ofStore (storeWith e₁ e₂) := by
    rw [hst, ofStore_storeWith h₁ h₂]
    exact ofStore_storeWith rfl rfl
  obtain ⟨hsize, hcount, hversion⟩ := word_storeWith h₁ h₂
  have hdates : (lookupAt 0 b).cfg.checkDates = false := show AppConfig.checkDates ⟨0, 0, false⟩ = false by decide
  have howner : (lookupAt 0 b).cfg.checkOwner = false := show AppConfig.checkOwner ⟨0, 0, false⟩ = false by decide
  have hnow : (lookupAt 0 b).now = some 0 := if_neg (by rw [hdates]; decide)
  have hpass : (lookupAt 0 b).Passes 0 e₁ := ⟨fun h => absurd h (by rw [hdates]; decide), fun h => absurd h (by rw [howner]; decide)⟩
  refine lookup_eq_some.2 ⟨_, 0, rfl, hrecorded, by omega, hversion, ?_, hnow, ?_, hpass, rfl⟩
  · unfold StoreWf
    rw [hsize, hcount]
    decide
  · rw [spkiEntries_storeWith h₁ h₂]
    exact List.find?_cons_of_pos (decide_eq_true hb)

lemma start_eq (var : Option Mem) : start (some fun _ => 0) (some fun _ => 0) var = ⟨readyCtx, var, none, []⟩ := rfl

theorem trusted_twoEntries : ∃ s, run (step sha256 storeKey) (start (some fun _ => 0) (some fun _ => 0) (some twoEntries))
    [.init, .replace (some twoEntries), .lookup (lookupAt 0 0xaa)] = some s ∧ s.granted.length = 1 ∧ s.OnlyVerified := by
  obtain ⟨ctx', hinit⟩ := init_twoEntries
  have hlookup : tlsTruststoreLookupEx ctx' (some twoEntries) (lookupAt 0 0xaa) = (some (bareEntry [0, 0, 0, 0] 0xaa), ctx') :=
    lookup_storeWith rfl rfl rfl hinit
  have hrun := run_replaced hinit hlookup
  have hkeep : Along Keeps (step sha256 storeKey) (start (some fun _ => 0) (some fun _ => 0) (some twoEntries))
      [.init, .replace (some twoEntries), .lookup (lookupAt 0 0xaa)] := by
    refine ⟨trivial, fun s hs => ⟨fun _ => ?_, fun _ _ => ⟨trivial, fun _ _ => trivial⟩⟩⟩
    cases (step_init hinit).symm.trans hs
    rfl
  exact ⟨_, hrun, rfl, trusted_of_kept hkeep hrun⟩

/-- A store is replaced by one with other entries, and one of these is trusted. -/
theorem trusted_unverified : ∃ s, run (step sha256 storeKey) (start (some fun _ => 0) (some fun _ => 0) (some twoEntries))
    [.init, .replace (some (storeWith (bareEntry [0, 0, 0, 0] 0xbb) (bareEntry [0, 0, 0, 0] 0xbb))), .lookup (lookupAt 0 0xbb)] =
      some s ∧ ¬ s.OnlyVerified := by
  obtain ⟨ctx', hinit⟩ := init_twoEntries
  have hlookup : tlsTruststoreLookupEx ctx' (some (storeWith (bareEntry [0, 0, 0, 0] 0xbb) (bareEntry [0, 0, 0, 0] 0xbb)))
      (lookupAt 0 0xbb) = (some (bareEntry [0, 0, 0, 0] 0xbb), ctx') :=
    lookup_storeWith rfl rfl rfl hinit
  have hrun := run_replaced hinit hlookup
  refine ⟨_, hrun, fun h => ?_⟩
  obtain ⟨v, hv, i, hi, he⟩ := h _ mem_cons_self
  cases hv
  have hsigned : signedPart twoEntries = (le32 0 ++ (le16 2 ++ le16 0)) ++
    (bareEntry [0, 0, 0, 0] 0xaa ++ bareEntry [0xff, 0xff, 0xff, 0xff] 0xaa) := signedPart_storeWith rfl rfl
  rw [hsigned] at hi he
  have hlen : ((le32 0 ++ (le16 2 ++ le16 0)) ++
    (bareEntry [0, 0, 0, 0] 0xaa ++ bareEntry [0xff, 0xff, 0xff, 0xff] 0xaa)).length = 216 := rfl
  obtain rfl | rfl : i = 0 ∨ i = 1 := by omega
  · exact absurd he (by decide +kernel)
  · exact absurd he (by decide +kernel)

end TrustSys

end LwftpCe.Tls
