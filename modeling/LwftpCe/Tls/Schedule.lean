import LwftpCe.Lib.Trace
import LwftpCe.Tls.Hkdf

/-!
# The key schedule

`tls_derive_handshake_keys`, `tls_derive_application_keys`, `tls_send_finished` and `tls_recv_finished` of `handshake.c`.
The calls of HKDF and HMAC never fail, so that the keys are those of RFC 8446 for the transcript at the time of the call.
-/

namespace LwftpCe.Tls

open Lib List Hkdf Option Arr

section Model

variable (hash : Hash)

def HsCtx.transcriptHash (ctx : HsCtx) : Bytes :=
  match ctx.transcript with
  | some fed => hash.bytes fed
  | none => List.replicate 32 0

def HsCtx.feed (ctx : HsCtx) (data : Bytes) : HsCtx := { ctx with transcript := ctx.transcript.map (· ++ data) }

def HsCtx.setKeys (ctx : HsCtx) (keys : TrafficKeys) : HsCtx := { ctx with keys := keys }

def orFail {α : Type} (call : Option α) (ctx : HsCtx) (next : α → Bool × HsCtx) : Bool × HsCtx :=
  match call with
  | none => (false, ctx)
  | some a => next a

def tlsDeriveHandshakeKeys (ctx : HsCtx) : Bool × HsCtx :=
  if ctx.state ≠ .serverHelloReceived then (false, ctx)
  else
    orFail (tlsHkdfExtract hash [] ctx.psk.val) ctx fun earlySecret =>
    let emptyHash := hash.bytes []
    orFail (tlsDeriveSecret hash earlySecret.val (ascii "derived") emptyHash) ctx fun derivedSecret =>
    orFail (tlsHkdfExtract hash derivedSecret (List.replicate 32 0)) ctx fun handshakeSecret =>
    let transcriptHash := ctx.transcriptHash hash
    orFail (tlsDeriveSecret hash handshakeSecret.val (ascii "c hs traffic") transcriptHash) ctx fun secret =>
    let ctx := ctx.setKeys { ctx.keys with clientHandshakeTrafficSecret := .ofBytes 32 secret }
    orFail (tlsDeriveSecret hash handshakeSecret.val (ascii "s hs traffic") transcriptHash) ctx fun secret =>
    let ctx := ctx.setKeys { ctx.keys with serverHandshakeTrafficSecret := .ofBytes 32 secret }
    orFail (tlsHkdfExpandLabel hash ctx.keys.clientHandshakeTrafficSecret.val (ascii "key") [] 16) ctx fun key =>
    let ctx := ctx.setKeys { ctx.keys with clientHandshakeKey := .ofBytes 16 key }
    orFail (tlsHkdfExpandLabel hash ctx.keys.clientHandshakeTrafficSecret.val (ascii "iv") [] 12) ctx fun iv =>
    let ctx := ctx.setKeys { ctx.keys with clientHandshakeIv := .ofBytes 12 iv }
    orFail (tlsHkdfExpandLabel hash ctx.keys.serverHandshakeTrafficSecret.val (ascii "key") [] 16) ctx fun key =>
    let ctx := ctx.setKeys { ctx.keys with serverHandshakeKey := .ofBytes 16 key }
    orFail (tlsHkdfExpandLabel hash ctx.keys.serverHandshakeTrafficSecret.val (ascii "iv") [] 12) ctx fun iv =>
    let ctx := ctx.setKeys { ctx.keys with serverHandshakeIv := .ofBytes 12 iv }
    (true, ctx.setKeys { ctx.keys with handshakeSecret := handshakeSecret })

def tlsDeriveApplicationKeys (ctx : HsCtx) : Bool × HsCtx :=
  let emptyHash := hash.bytes []
  orFail (tlsDeriveSecret hash ctx.keys.handshakeSecret.val (ascii "derived") emptyHash) ctx fun derivedSecret =>
  orFail (tlsHkdfExtract hash derivedSecret (List.replicate 32 0)) ctx fun masterSecret =>
  let transcriptHash := ctx.transcriptHash hash
  orFail (tlsDeriveSecret hash masterSecret.val (ascii "c ap traffic") transcriptHash) ctx fun secret =>
  let ctx := ctx.setKeys { ctx.keys with clientApplicationTrafficSecret := .ofBytes 32 secret }
  orFail (tlsDeriveSecret hash masterSecret.val (ascii "s ap traffic") transcriptHash) ctx fun secret =>
  let ctx := ctx.setKeys { ctx.keys with serverApplicationTrafficSecret := .ofBytes 32 secret }
  orFail (tlsHkdfExpandLabel hash ctx.keys.clientApplicationTrafficSecret.val (ascii "key") [] 16) ctx fun key =>
  let ctx := ctx.setKeys { ctx.keys with clientApplicationKey := .ofBytes 16 key }
  orFail (tlsHkdfExpandLabel hash ctx.keys.clientApplicationTrafficSecret.val (ascii "iv") [] 12) ctx fun iv =>
  let ctx := ctx.setKeys { ctx.keys with clientApplicationIv := .ofBytes 12 iv }
  orFail (tlsHkdfExpandLabel hash ctx.keys.serverApplicationTrafficSecret.val (ascii "key") [] 16) ctx fun key =>
  let ctx := ctx.setKeys { ctx.keys with serverApplicationKey := .ofBytes 16 key }
  orFail (tlsHkdfExpandLabel hash ctx.keys.serverApplicationTrafficSecret.val (ascii "iv") [] 12) ctx fun iv =>
  (true, ctx.setKeys { ctx.keys with serverApplicationIv := .ofBytes 12 iv })

def finishedData (ctx : HsCtx) (trafficSecret : Arr 32) : Option (Arr 32) :=
  (tlsHkdfExpandLabel hash trafficSecret.val (ascii "finished") [] 32).bind fun finishedKey =>
    (tlsHmacContextInit hash finishedKey).map fun hmac =>
      tlsHmacDigest hash (tlsHmacUpdate hmac (ctx.transcriptHash hash))

def tlsSendFinished (ctx : HsCtx) (isClient : Bool) (outLen : ℕ) : Option (Bytes × HsCtx) :=
  if outLen < 36 then none
  else
    let trafficSecret := if isClient then ctx.keys.clientHandshakeTrafficSecret else ctx.keys.serverHandshakeTrafficSecret
    (finishedData hash ctx trafficSecret).map fun verifyData =>
      let out := [0x14, 0x00, 0x00, 0x20] ++ verifyData.val
      (out, ctx.feed out)

def finishedDiff (received expected : Bytes) : UInt8 := (List.zipWith (· ^^^ ·) received expected).foldl (· ||| ·) 0

def tlsRecvFinished (ctx : HsCtx) (isClient : Bool) (data : Bytes) : Bool × HsCtx :=
  if data.length < 36 then (false, ctx)
  else if data.headD 0 ≠ 0x14 then (false, ctx)
  else if beNat ((data.drop 1).take 3) ≠ 32 ∨ 4 + 32 > data.length then (false, ctx)
  else
    let trafficSecret := if isClient then ctx.keys.serverHandshakeTrafficSecret else ctx.keys.clientHandshakeTrafficSecret
    orFail (finishedData hash ctx trafficSecret) ctx fun expected =>
    if finishedDiff ((data.drop 4).take 32) expected.val ≠ 0 then (false, ctx) else (true, ctx.feed (data.take 36))

end Model

/-! ### What they compute -/

def TrafficKeys.withHandshake (hash : Hash) (keys : TrafficKeys) (psk messages : Bytes) : TrafficKeys :=
  let secret := Hkdf.handshakeSecret hash.bytes psk
  let client := Hkdf.deriveSecret hash.bytes secret (ascii "c hs traffic") messages
  let server := Hkdf.deriveSecret hash.bytes secret (ascii "s hs traffic") messages
  { keys with
    handshakeSecret := .ofBytes 32 secret
    clientHandshakeTrafficSecret := .ofBytes 32 client
    serverHandshakeTrafficSecret := .ofBytes 32 server
    clientHandshakeKey := .ofBytes 16 (Hkdf.expandLabel hash.bytes client (ascii "key") [] 16)
    clientHandshakeIv := .ofBytes 12 (Hkdf.expandLabel hash.bytes client (ascii "iv") [] 12)
    serverHandshakeKey := .ofBytes 16 (Hkdf.expandLabel hash.bytes server (ascii "key") [] 16)
    serverHandshakeIv := .ofBytes 12 (Hkdf.expandLabel hash.bytes server (ascii "iv") [] 12) }

def TrafficKeys.withApplication (hash : Hash) (keys : TrafficKeys) (messages : Bytes) : TrafficKeys :=
  let secret := Hkdf.nextSecret hash.bytes keys.handshakeSecret.val
  let client := Hkdf.deriveSecret hash.bytes secret (ascii "c ap traffic") messages
  let server := Hkdf.deriveSecret hash.bytes secret (ascii "s ap traffic") messages
  { keys with
    clientApplicationTrafficSecret := .ofBytes 32 client
    serverApplicationTrafficSecret := .ofBytes 32 server
    clientApplicationKey := .ofBytes 16 (Hkdf.expandLabel hash.bytes client (ascii "key") [] 16)
    clientApplicationIv := .ofBytes 12 (Hkdf.expandLabel hash.bytes client (ascii "iv") [] 12)
    serverApplicationKey := .ofBytes 16 (Hkdf.expandLabel hash.bytes server (ascii "key") [] 16)
    serverApplicationIv := .ofBytes 12 (Hkdf.expandLabel hash.bytes server (ascii "iv") [] 12) }

section Spec

variable {hash : Hash} {ctx : HsCtx} {messages : Bytes} {data : Bytes} {a b : HsCtx}

@[simp] lemma orFail_some {α : Type} (a : α) (ctx : HsCtx) (next : α → Bool × HsCtx) : orFail (some a) ctx next = next a :=
  rfl

lemma transcriptHash_some (h : ctx.transcript = some messages) : ctx.transcriptHash hash = hash.bytes messages := by
  rw [HsCtx.transcriptHash, h]

lemma Arr.ne_nil (a : Arr 32) : a.val ≠ [] := by
  intro h
  have hlen := a.property
  rw [h] at hlen
  cases hlen

lemma extract_some (hash : Hash) (salt ikm : Bytes) :
    ∃ a : Arr 32, tlsHkdfExtract hash salt ikm = some a ∧ extract hash.bytes salt ikm = a.val := by
  obtain ⟨a, ha, hval⟩ := map_eq_some_iff.1 (tlsHkdfExtract_eq hash salt ikm)
  exact ⟨a, ha, hval.symm⟩

lemma deriveSecret_some (hash : Hash) (secret : Arr 32) (label : Bytes) (hlabel : label ≠ [] ∧ label.length ≤ 249)
    (messages : Bytes) : ∃ a : Arr 32, tlsDeriveSecret hash secret.val label (hash.bytes messages) = some a.val ∧
      deriveSecret hash.bytes secret.val label messages = a.val :=
  ⟨⟨_, length_expandLabel hash.length_bytes ..⟩, tlsDeriveSecret_eq secret.ne_nil hlabel.1 hlabel.2 messages, rfl⟩

lemma expandLabel_some (hash : Hash) (secret : Arr 32) (label : Bytes) (hlabel : label ≠ [] ∧ label.length ≤ 249) (n : ℕ)
    (hn : n ≤ 32) : ∃ a : Arr n, tlsHkdfExpandLabel hash secret.val label [] n = some a.val ∧
      expandLabel hash.bytes secret.val label [] n = a.val :=
  ⟨⟨_, length_expandLabel hash.length_bytes ..⟩,
    tlsHkdfExpandLabel_eq secret.ne_nil hlabel.1 hlabel.2 (by decide) (by omega), rfl⟩

lemma tlsDeriveHandshakeKeys_eq (hstate : ctx.state = .serverHelloReceived) (ht : ctx.transcript = some messages) :
    tlsDeriveHandshakeKeys hash ctx = (true, ctx.setKeys (ctx.keys.withHandshake hash ctx.psk.val messages)) := by
  obtain ⟨early, hearly, hearly'⟩ := extract_some hash [] ctx.psk.val
  obtain ⟨derived, hderived, hderived'⟩ := deriveSecret_some hash early (ascii "derived") (by decide) []
  obtain ⟨secret, hsecret, hsecret'⟩ := extract_some hash derived.val (replicate 32 0)
  obtain ⟨client, hclient, hclient'⟩ := deriveSecret_some hash secret (ascii "c hs traffic") (by decide) messages
  obtain ⟨server, hserver, hserver'⟩ := deriveSecret_some hash secret (ascii "s hs traffic") (by decide) messages
  obtain ⟨ckey, hckey, hckey'⟩ := expandLabel_some hash client (ascii "key") (by decide) 16 (by decide)
  obtain ⟨civ, hciv, hciv'⟩ := expandLabel_some hash client (ascii "iv") (by decide) 12 (by decide)
  obtain ⟨skey, hskey, hskey'⟩ := expandLabel_some hash server (ascii "key") (by decide) 16 (by decide)
  obtain ⟨siv, hsiv, hsiv'⟩ := expandLabel_some hash server (ascii "iv") (by decide) 12 (by decide)
  have hkeys : ctx.keys.withHandshake hash ctx.psk.val messages = { ctx.keys with
      handshakeSecret := secret, clientHandshakeTrafficSecret := client, serverHandshakeTrafficSecret := server,
      clientHandshakeKey := ckey, clientHandshakeIv := civ, serverHandshakeKey := skey, serverHandshakeIv := siv } := by
    simp only [TrafficKeys.withHandshake, handshakeSecret, nextSecret, hearly', hderived', hsecret', hclient',
      hserver', hckey', hciv', hskey', hsiv', ofBytes_val]
  unfold tlsDeriveHandshakeKeys
  rw [if_neg (by simp [hstate]), hearly, hkeys, transcriptHash_some ht]
  dsimp only [orFail, HsCtx.setKeys]
  simp only [hderived, hsecret, hclient, hserver, ofBytes_val, hckey, hciv, hskey, hsiv]

lemma tlsDeriveApplicationKeys_eq (ht : ctx.transcript = some messages) :
    tlsDeriveApplicationKeys hash ctx = (true, ctx.setKeys (ctx.keys.withApplication hash messages)) := by
  obtain ⟨derived, hderived, hderived'⟩ := deriveSecret_some hash ctx.keys.handshakeSecret (ascii "derived") (by decide) []
  obtain ⟨secret, hsecret, hsecret'⟩ := extract_some hash derived.val (replicate 32 0)
  obtain ⟨client, hclient, hclient'⟩ := deriveSecret_some hash secret (ascii "c ap traffic") (by decide) messages
  obtain ⟨server, hserver, hserver'⟩ := deriveSecret_some hash secret (ascii "s ap traffic") (by decide) messages
  obtain ⟨ckey, hckey, hckey'⟩ := expandLabel_some hash client (ascii "key") (by decide) 16 (by decide)
  obtain ⟨civ, hciv, hciv'⟩ := expandLabel_some hash client (ascii "iv") (by decide) 12 (by decide)
  obtain ⟨skey, hskey, hskey'⟩ := expandLabel_some hash server (ascii "key") (by decide) 16 (by decide)
  obtain ⟨siv, hsiv, hsiv'⟩ := expandLabel_some hash server (ascii "iv") (by decide) 12 (by decide)
  have hkeys : ctx.keys.withApplication hash messages = { ctx.keys with
      clientApplicationTrafficSecret := client, serverApplicationTrafficSecret := server,
      clientApplicationKey := ckey, clientApplicationIv := civ, serverApplicationKey := skey, serverApplicationIv := siv } := by
    simp only [TrafficKeys.withApplication, nextSecret, hderived', hsecret', hclient', hserver', hckey', hciv', hskey',
      hsiv', ofBytes_val]
  unfold tlsDeriveApplicationKeys
  rw [hkeys, transcriptHash_some ht]
  dsimp only [orFail, HsCtx.setKeys]
  simp only [hderived, hsecret, hclient, hserver, ofBytes_val, hckey, hciv, hskey, hsiv]

def IsTraffic (hash : Hash) (secret : Bytes) (s : Arr 32) (key : Arr 16) (iv : Arr 12) : Prop :=
  s.val = secret ∧ key.val = Hkdf.expandLabel hash.bytes secret (ascii "key") [] 16 ∧
    iv.val = Hkdf.expandLabel hash.bytes secret (ascii "iv") [] 12

/-- The keys of RFC 8446 (7.1) with a pre-shared key alone, for the transcripts at the two derivations. -/
structure OfSchedule (hash : Hash) (psk handshake application : Bytes) (keys : TrafficKeys) : Prop where
  clientHandshake : IsTraffic hash (Hkdf.deriveSecret hash.bytes (Hkdf.handshakeSecret hash.bytes psk) (ascii "c hs traffic")
    handshake) keys.clientHandshakeTrafficSecret keys.clientHandshakeKey keys.clientHandshakeIv
  serverHandshake : IsTraffic hash (Hkdf.deriveSecret hash.bytes (Hkdf.handshakeSecret hash.bytes psk) (ascii "s hs traffic")
    handshake) keys.serverHandshakeTrafficSecret keys.serverHandshakeKey keys.serverHandshakeIv
  clientApplication : IsTraffic hash (Hkdf.deriveSecret hash.bytes (Hkdf.nextSecret hash.bytes (Hkdf.handshakeSecret hash.bytes psk))
    (ascii "c ap traffic") application) keys.clientApplicationTrafficSecret keys.clientApplicationKey keys.clientApplicationIv
  serverApplication : IsTraffic hash (Hkdf.deriveSecret hash.bytes (Hkdf.nextSecret hash.bytes (Hkdf.handshakeSecret hash.bytes psk))
    (ascii "s ap traffic") application) keys.serverApplicationTrafficSecret keys.serverApplicationKey keys.serverApplicationIv

lemma isTraffic_ofBytes (hash : Hash) (secret label messages : Bytes) : IsTraffic hash (deriveSecret hash.bytes secret label messages)
      (.ofBytes 32 (deriveSecret hash.bytes secret label messages))
      (.ofBytes 16 (expandLabel hash.bytes (deriveSecret hash.bytes secret label messages) (ascii "key") [] 16))
      (.ofBytes 12 (expandLabel hash.bytes (deriveSecret hash.bytes secret label messages) (ascii "iv") [] 12)) :=
  ⟨val_ofBytes (length_expandLabel hash.length_bytes ..), val_ofBytes (length_expandLabel hash.length_bytes ..),
    val_ofBytes (length_expandLabel hash.length_bytes ..)⟩

/-- **The key schedule** is that of RFC 8446, whatever has been fed to the transcript between the two derivations. -/
theorem schedule_conforms (hash : Hash) (ctx : HsCtx) (handshake application : Bytes) (hstate : ctx.state = .serverHelloReceived)
    (ht : ctx.transcript = some handshake) : ∃ ctx₁, tlsDeriveHandshakeKeys hash ctx = (true, ctx₁) ∧ ctx₁.transcript = some handshake ∧
      ∀ ctx₂, ctx₂.keys = ctx₁.keys → ctx₂.transcript = some application → ∃ ctx₃, tlsDeriveApplicationKeys hash ctx₂ = (true, ctx₃) ∧
        ctx₃.transcript = some application ∧ OfSchedule hash ctx.psk.val handshake application ctx₃.keys := by
  refine ⟨_, tlsDeriveHandshakeKeys_eq hstate ht, ht, fun ctx₂ hkeys ht2 => ⟨_, tlsDeriveApplicationKeys_eq ht2, ht2, ?_⟩⟩
  have hsecret : (ofBytes 32 (handshakeSecret hash.bytes ctx.psk.val)).val = handshakeSecret hash.bytes ctx.psk.val :=
    val_ofBytes (hash.length_bytes _)
  have hks : ctx₂.keys.handshakeSecret.val = handshakeSecret hash.bytes ctx.psk.val := by rw [hkeys]; exact hsecret
  refine ⟨?_, ?_, ?_, ?_⟩
  · rw [hkeys]
    exact isTraffic_ofBytes ..
  · rw [hkeys]
    exact isTraffic_ofBytes ..
  · rw [← hks]
    exact isTraffic_ofBytes ..
  · rw [← hks]
    exact isTraffic_ofBytes ..

theorem schedule_conforms_short : ∃ ctx₁, tlsDeriveHandshakeKeys sha256 { HsCtx.zero with state := .serverHelloReceived, transcript := some [] } =
    (true, ctx₁) ∧ ∃ ctx₃, tlsDeriveApplicationKeys sha256 (ctx₁.feed [1, 2]) = (true, ctx₃) ∧
      OfSchedule sha256 (replicate 32 0) [] [1, 2] ctx₃.keys := by
  obtain ⟨ctx₁, h1, ht1, h⟩ := schedule_conforms sha256 { HsCtx.zero with state := .serverHelloReceived, transcript := some [] } [] [1, 2]
    rfl rfl
  obtain ⟨ctx₃, h3, -, hkeys⟩ := h (ctx₁.feed [1, 2]) rfl (by rw [HsCtx.feed, ht1]; rfl)
  exact ⟨ctx₁, h1, ctx₃, h3, hkeys⟩

/-! ### Finished -/

lemma finishedData_some (hash : Hash) (ctx : HsCtx) (secret : Arr 32) : (finishedData hash ctx secret).map Subtype.val =
    some (hmac hash.bytes (finishedKey hash.bytes secret.val) (ctx.transcriptHash hash)) := by
  obtain ⟨key, hkey, hkey'⟩ := expandLabel_some hash secret (ascii "finished") (by decide) 32 (by decide)
  obtain ⟨hmac, hinit, hval⟩ := hmac_spec hash key.ne_nil
  unfold finishedData
  rw [hkey, bind_some, hinit, map_some, map_some, hval, finishedKey, hkey']

def finishedMessage (hash : Hash) (ctx : HsCtx) (isClient : Bool) : Bytes :=
  [0x14, 0x00, 0x00, 0x20] ++ Hkdf.hmac hash.bytes (Hkdf.finishedKey hash.bytes (if isClient then
    ctx.keys.clientHandshakeTrafficSecret else ctx.keys.serverHandshakeTrafficSecret).val) (ctx.transcriptHash hash)

lemma tlsSendFinished_some (hash : Hash) (ctx : HsCtx) (isClient : Bool) {outLen : ℕ} (h : 36 ≤ outLen) :
    tlsSendFinished hash ctx isClient outLen = some (finishedMessage hash ctx isClient, ctx.feed (finishedMessage hash ctx isClient)) := by
  obtain ⟨data, hdata, hval⟩ := map_eq_some_iff.1 (finishedData_some hash ctx (if isClient then
    ctx.keys.clientHandshakeTrafficSecret else ctx.keys.serverHandshakeTrafficSecret))
  unfold tlsSendFinished finishedMessage
  rw [if_neg (Nat.not_lt.2 h)]
  dsimp only
  rw [hdata, map_some, hval]

lemma finishedDiff_eq_zero {a b : Bytes} (h : a.length = b.length) : finishedDiff a b = 0 ↔ a = b := by
  have hfold : ∀ (l : Bytes) (acc : UInt8), l.foldl (· ||| ·) acc = 0 ↔ acc = 0 ∧ ∀ x ∈ l, x = 0 := by
    intro l
    induction l with
    | nil => simp
    | cons x l ih =>
      intro acc
      rw [foldl_cons, ih, UInt8.or_eq_zero_iff, forall_mem_cons, and_assoc]
  unfold finishedDiff
  rw [hfold]
  induction a generalizing b with
  | nil =>
    simp [length_eq_zero_iff.1 h.symm]
  | cons x a ih =>
    cases b with
    | nil => cases h
    | cons y b =>
      have htail := ih (Nat.succ.inj h)
      simp only [true_and] at htail ⊢
      rw [zipWith_cons_cons, forall_mem_cons, UInt8.xor_eq_zero_iff, List.cons.injEq]
      exact and_congr_right fun _ => htail

lemma tlsRecvFinished_eq (hash : Hash) (ctx : HsCtx) (isClient : Bool) (h : data.length = 36) :
    tlsRecvFinished hash ctx (!isClient) data =
      if data = finishedMessage hash ctx isClient then (true, ctx.feed data) else (false, ctx) := by
  obtain ⟨expected, hexpected, hval⟩ := map_eq_some_iff.1 (finishedData_some hash ctx (if isClient then
    ctx.keys.clientHandshakeTrafficSecret else ctx.keys.serverHandshakeTrafficSecret))
  -- the header of four bytes, and the verify data
  obtain _ | ⟨a, _ | ⟨b, _ | ⟨c, _ | ⟨d, rest⟩⟩⟩⟩ := data
  · cases h
  · cases h
  · cases h
  · cases h
  have hrest : rest.length = 32 := by simpa using h
  have hlen : beNat [b, c, d] = 32 ↔ b = 0 ∧ c = 0 ∧ d = 0x20 := by
    constructor
    · intro hbe
      have hbytes := be_beNat [b, c, d]
      rw [hbe] at hbytes
      have heq : [(0 : UInt8), 0, 0x20] = [b, c, d] := hbytes
      simp only [List.cons.injEq] at heq
      exact ⟨heq.1.symm, heq.2.1.symm, heq.2.2.1.symm⟩
    · rintro ⟨rfl, rfl, rfl⟩
      rfl
  have hdiff : finishedDiff rest expected.val = 0 ↔ rest = expected.val := finishedDiff_eq_zero (by rw [hrest, expected.property])
  have hsecret : (if (!isClient) then ctx.keys.serverHandshakeTrafficSecret else ctx.keys.clientHandshakeTrafficSecret) =
      if isClient then ctx.keys.clientHandshakeTrafficSecret else ctx.keys.serverHandshakeTrafficSecret := by
    cases isClient <;> rfl
  have hmessage : a :: b :: c :: d :: rest = finishedMessage hash ctx isClient ↔
      a = 0x14 ∧ (b = 0 ∧ c = 0 ∧ d = 0x20) ∧ rest = expected.val := by
    rw [finishedMessage, ← hval]
    simp only [cons_append, nil_append, List.cons.injEq, and_assoc]
  unfold tlsRecvFinished
  rw [hsecret]
  dsimp only
  rw [hexpected, orFail_some]
  have htake : rest.take 32 = rest := take_of_length_le (by omega)
  have hfit : ¬ 4 + 32 > (a :: b :: c :: d :: rest).length := by omega
  simp only [headD_cons, drop_succ_cons, drop_zero, take_succ_cons, take_zero, hfit, or_false, ne_eq, hlen,
    htake, hdiff, hmessage]
  by_cases ha : a = 0x14
  · by_cases hb : b = 0 ∧ c = 0 ∧ d = 0x20
    · by_cases hr : rest = expected.val
      · simp [ha, hb, hr]
      · simp [ha, hb, hr]
    · simp [ha, hb]
  · simp [ha]

lemma tlsRecvFinished_false {isClient : Bool} (h : (tlsRecvFinished hash ctx isClient data).1 = false) :
    (tlsRecvFinished hash ctx isClient data).2 = ctx := by
  unfold tlsRecvFinished orFail at h ⊢
  split_ifs at h ⊢
  · rfl
  · rfl
  · rfl
  all_goals
    dsimp only at h ⊢
    split at h
    · rfl
    · split_ifs at h ⊢
      rfl

structure HsCtx.Agrees (a b : HsCtx) : Prop where
  client : b.keys.clientHandshakeTrafficSecret = a.keys.clientHandshakeTrafficSecret
  server : b.keys.serverHandshakeTrafficSecret = a.keys.serverHandshakeTrafficSecret
  transcript : b.transcript = a.transcript

lemma HsCtx.Agrees.feed (h : a.Agrees b) (m : Bytes) : (a.feed m).Agrees (b.feed m) :=
  ⟨h.client, h.server, congrArg (Option.map (· ++ m)) h.transcript⟩

lemma HsCtx.Agrees.message (h : a.Agrees b) (isClient : Bool) :
    finishedMessage hash b isClient = finishedMessage hash a isClient := by
  unfold finishedMessage HsCtx.transcriptHash
  rw [h.client, h.server, h.transcript]

lemma HsCtx.Agrees.recv (h : a.Agrees b) (hash : Hash) (isClient : Bool) :
    tlsRecvFinished hash b (!isClient) (finishedMessage hash a isClient) = (true, b.feed (finishedMessage hash a isClient)) := by
  have hlen : (finishedMessage hash a isClient).length = 36 := by
    rw [finishedMessage, length_append, hmac, hash.length_bytes]
    rfl
  rw [tlsRecvFinished_eq hash b isClient hlen, if_pos (h.message isClient).symm]

def exchangeFinished (hash : Hash) (sides : HsCtx × HsCtx) (isClient : Bool) : Option (HsCtx × HsCtx) :=
  let (sender, receiver) := if isClient then sides else sides.swap
  (tlsSendFinished hash sender isClient 36).bind fun (m, sender) =>
    match tlsRecvFinished hash receiver (!isClient) m with
    | (false, _) => none
    | (true, receiver) => some (if isClient then (sender, receiver) else (receiver, sender))

lemma exchangeFinished_some (h : a.Agrees b) (isClient : Bool) : exchangeFinished hash (a, b) isClient =
    some (a.feed (finishedMessage hash a isClient), b.feed (finishedMessage hash a isClient)) := by
  have h' : b.Agrees a := ⟨h.client.symm, h.server.symm, h.transcript.symm⟩
  cases isClient with
  | true =>
    simp only [exchangeFinished, if_true, tlsSendFinished_some hash a true le_rfl, bind_some, h.recv]
  | false =>
    have hsent := tlsSendFinished_some hash b false le_rfl
    have hrecv := h'.recv hash false
    rw [h.message] at hsent hrecv
    simp only [exchangeFinished, Bool.false_eq_true, if_false, Prod.swap_prod_mk, hsent, bind_some, hrecv]

/-- **Finished messages agree between the two ends**: what one side sends the other accepts, in any order and in both directions;
no other message of 36 bytes is accepted; and a message that is refused changes nothing. -/
theorem finished_agrees (hash : Hash) (a b : HsCtx) (h : a.Agrees b) :
    (∀ isClient outLen, 36 ≤ outLen → ∃ m a', tlsSendFinished hash a isClient outLen = some (m, a') ∧
      (∃ b', tlsRecvFinished hash b (!isClient) m = (true, b') ∧ a'.Agrees b') ∧
      ∀ data, data.length = 36 → (tlsRecvFinished hash b (!isClient) data).1 = true → data = m) ∧
    (∀ senders : List Bool, ∃ a' b', run (exchangeFinished hash) (a, b) senders = some (a', b') ∧ a'.Agrees b') ∧
    ∀ isClient data, (tlsRecvFinished hash b isClient data).1 = false → (tlsRecvFinished hash b isClient data).2 = b := by
  refine ⟨fun isClient outLen hout => ?_, fun senders => ?_, fun _ _ => tlsRecvFinished_false⟩
  · refine ⟨_, _, tlsSendFinished_some hash a isClient hout, ⟨_, h.recv hash isClient, h.feed _⟩, fun data hlen hok => ?_⟩
    rw [tlsRecvFinished_eq hash b isClient hlen] at hok
    split_ifs at hok with hdata
    exact hdata.trans (h.message isClient)
  · induction senders generalizing a b with
    | nil => exact ⟨a, b, rfl, h⟩
    | cons isClient senders ih =>
      obtain ⟨a', b', hrun, h'⟩ := ih _ _ (h.feed (finishedMessage hash a isClient))
      exact ⟨a', b', run_cons_some.2 ⟨_, exchangeFinished_some h isClient, hrun⟩, h'⟩

/-- One end of a handshake with a transcript and two secrets; the record numbers are its own. -/
def finishedEnd (clientSeqNum serverSeqNum : ℕ) : HsCtx :=
  { HsCtx.zero with
    transcript := some [0x01, 0x00, 0x00, 0x00, 0x02, 0x00, 0x00, 0x00]
    keys := { TrafficKeys.zero with
      clientHandshakeTrafficSecret := .ofBytes 32 [1, 2, 3]
      serverHandshakeTrafficSecret := .ofBytes 32 [4, 5, 6] }
    clientSeqNum := clientSeqNum
    serverSeqNum := serverSeqNum }

theorem finished_agrees_both : (finishedEnd 0 1).Agrees (finishedEnd 1 0) ∧
    ∃ a' b', run (exchangeFinished sha256) (finishedEnd 0 1, finishedEnd 1 0) [false, true] = some (a', b') ∧ a'.Agrees b' :=
  ⟨⟨rfl, rfl, rfl⟩, (finished_agrees sha256 (finishedEnd 0 1) (finishedEnd 1 0) ⟨rfl, rfl, rfl⟩).2.1 [false, true]⟩

end Spec

end LwftpCe.Tls
