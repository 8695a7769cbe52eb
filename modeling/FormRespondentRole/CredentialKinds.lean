import FormRespondentRole.Credentials

/-!
# Kinds of credentials

A verifier accepts a text exactly when it is the verifier's prefix followed by a sealed payload
whose fields the verifier can read.  The HMAC covers the payload and not the prefix, so which
verifiers accept a credential once its prefix is replaced depends on the fields of its payload
alone.
-/

namespace FormRespondentRole

open Foundations Text

variable {hmac : Mac} {url : UrlEncoding} {secret : Text} {now : Timestamp}

/-! ## What the verifiers accept -/

/-- The text of an expiry that is not over. -/
def Live (now : Timestamp) (expStr : Text) : Prop :=
  ∃ exp, parseI64 expStr = some exp ∧ now.seconds ≤ exp

/-- The checks that the three verifiers share: the expiry, then the signature. -/
private theorem checks_eq_some_iff {β : Type} {expStr sig expected : Text} {x : Option β} {r : β} :
    ((parseI64 expStr).bind fun exp =>
      if now.seconds > exp then none else if (!constantTimeEq (bytes sig) (bytes expected)) =
        true then none else x) =
        some r ↔ Live now expStr ∧ sig = expected ∧ x = some r := by
  rw [Option.bind_eq_some_iff]
  by_cases hsig : sig = expected
  · have heq : constantTimeEq (bytes sig) (bytes expected) = true :=
      constantTimeEq_iff.2 (congrArg bytes hsig)
    constructor
    · rintro ⟨exp, hexp, h⟩
      by_cases hnow : now.seconds > exp
      · rw [if_pos hnow] at h; cases h
      · rw [if_neg hnow, if_neg (by rw [heq]; decide)] at h
        exact ⟨⟨exp, hexp, by omega⟩, hsig, h⟩
    · rintro ⟨⟨exp, hexp, hnow⟩, -, h⟩
      refine ⟨exp, hexp, ?_⟩
      rw [if_neg (by omega), if_neg (by rw [heq]; decide), h]
  · have hne : constantTimeEq (bytes sig) (bytes expected) = false :=
      Bool.eq_false_iff.2 fun h => hsig (bytes_injective (constantTimeEq_iff.1 h))
    constructor
    · rintro ⟨exp, -, h⟩
      rw [hne] at h
      by_cases hnow : now.seconds > exp
      · rw [if_pos hnow] at h; cases h
      · rw [if_neg hnow] at h; cases h
    · rintro ⟨-, h, -⟩
      exact absurd h hsig

theorem stripPrefix_eq_some_iff {pre s rest : Text} : stripPrefix pre s = some rest ↔
    s = pre ++ rest := by
  unfold stripPrefix
  by_cases hpre : pre <+: s
  · obtain ⟨t, rfl⟩ := hpre
    rw [if_pos (List.prefix_append pre t), List.drop_left]
    constructor
    · intro h; rw [Option.some.inj h]
    · intro h; rw [List.append_cancel_left h]
  · rw [if_neg hpre]
    constructor
    · intro h; cases h
    · rintro rfl; exact absurd (List.prefix_append pre rest) hpre

theorem verifySession_eq_some_iff {cookieValue : Text} {r : Text × Text} :
    verifySession hmac url cookieValue secret now = some r ↔
      ∃ payload encodedName expiresStr, payload.splitOn ':' = [r.1, encodedName, expiresStr] ∧
        cookieValue = sealed ':' (hmac secret) payload ∧ Live now expiresStr ∧
          url.decode encodedName = some r.2 := by
  constructor
  · intro h
    unfold verifySession at h
    split at h
    · rename_i discordId encodedName expiresStr sig hfields
      obtain ⟨hlive, rfl, hname⟩ := checks_eq_some_iff.1 h
      obtain ⟨displayName, hdecode, hr⟩ := Option.bind_eq_some_iff.1 hname
      cases hr
      have hsealed : splitn ':' 4 cookieValue = [discordId, encodedName, expiresStr] ++
          [hexEncode (hmac secret
            ([':'].intercalate [discordId, encodedName, expiresStr]))] := by simpa using hfields
      obtain ⟨payload, hsplit, htext⟩ := (splitn_sealed_iff (n := 2) rfl).1 hsealed
      exact ⟨payload, encodedName, expiresStr, hsplit, htext, hlive, hdecode⟩
    · cases h
  · rintro ⟨payload, encodedName, expiresStr, hsplit, htext, hlive, hdecode⟩
    have hfields := (splitn_sealed_iff (n := 2) rfl).2 ⟨payload, hsplit, htext⟩
    unfold verifySession
    rw [hfields]
    exact checks_eq_some_iff.2 ⟨hlive, by simp, by rw [hdecode]; rfl⟩

theorem verifyDweebSession_eq_some_iff {token : Text} {r : DweebSession} :
    verifyDweebSession hmac token secret now = some r ↔
      ∃ payload expStr, payload.splitOn ':' = [r.discordId, r.guildId, expStr] ∧
        token = dweebPrefix ++ sealed ':' (hmac secret) payload ∧ Live now expStr := by
  constructor
  · intro h
    obtain ⟨rest, hrest, h⟩ := Option.bind_eq_some_iff.1 h
    have htoken := stripPrefix_eq_some_iff.1 hrest
    split at h
    · rename_i discordId guildId expStr sig hfields
      obtain ⟨hlive, rfl, hr⟩ := checks_eq_some_iff.1 h
      cases hr
      have hsealed : splitn ':' 4 rest = [discordId, guildId, expStr] ++
          [hexEncode (hmac secret
            ([':'].intercalate [discordId, guildId, expStr]))] := by simpa using hfields
      obtain ⟨payload, hsplit, htext⟩ := (splitn_sealed_iff (n := 2) rfl).1 hsealed
      exact ⟨payload, expStr, hsplit, by rw [htoken, htext], hlive⟩
    · cases h
  · rintro ⟨payload, expStr, hsplit, htext, hlive⟩
    have hsealed : ∃ p : Text, p.splitOn ':' = [r.discordId, r.guildId, expStr] ∧
        sealed ':' (hmac secret) payload = sealed ':' (hmac secret) p := ⟨payload, hsplit, rfl⟩
    have hfields := (splitn_sealed_iff (n := 2) rfl).2 hsealed
    refine Option.bind_eq_some_iff.2 ⟨_, stripPrefix_eq_some_iff.2 htext, ?_⟩
    rw [hfields]
    exact checks_eq_some_iff.2 ⟨hlive, by simp, rfl⟩

theorem verifyIframeSession_eq_some_iff {token : Text} {r : IframeSession} :
    verifyIframeSession hmac token secret now = some r ↔
      ∃ payload roStr actStr expStr,
        payload.splitOn ':' = [r.discordId, r.guildId, r.roleId, roStr, actStr, expStr] ∧
        token = iframePrefix ++ sealed ':' (hmac secret) payload ∧
        readOnlyFlag roStr = some r.readOnly ∧
        Live now expStr ∧ r.actorId = if actStr = [] then none else some actStr := by
  constructor
  · intro h
    obtain ⟨rest, hrest, h⟩ := Option.bind_eq_some_iff.1 h
    have htoken := stripPrefix_eq_some_iff.1 hrest
    split at h
    · rename_i discordId guildId roleId roStr actStr expStr sig hfields
      obtain ⟨readOnly, hflag, h⟩ := Option.bind_eq_some_iff.1 h
      obtain ⟨hlive, rfl, hr⟩ := checks_eq_some_iff.1 h
      cases hr
      have hsealed : splitn ':' 7 rest = [discordId, guildId, roleId, roStr, actStr, expStr] ++
          [hexEncode (hmac secret
              ([':'].intercalate [discordId, guildId, roleId, roStr, actStr, expStr]))] := by
        simpa using hfields
      obtain ⟨payload, hsplit, htext⟩ := (splitn_sealed_iff (n := 5) rfl).1 hsealed
      exact ⟨payload, roStr, actStr, expStr, hsplit, by rw [htoken, htext], hflag, hlive, rfl⟩
    · cases h
  · rintro ⟨payload, roStr, actStr, expStr, hsplit, htext, hflag, hlive, hactor⟩
    have hsealed :
      ∃ p : Text, p.splitOn ':' = [r.discordId, r.guildId, r.roleId, roStr, actStr, expStr] ∧
        sealed ':' (hmac secret) payload = sealed ':' (hmac secret) p := ⟨payload, hsplit, rfl⟩
    have hfields := (splitn_sealed_iff (n := 5) rfl).2 hsealed
    refine Option.bind_eq_some_iff.2 ⟨_, stripPrefix_eq_some_iff.2 htext, ?_⟩
    rw [hfields]
    refine Option.bind_eq_some_iff.2 ⟨_, hflag, checks_eq_some_iff.2 ⟨hlive, by simp, ?_⟩⟩
    rw [← hactor]

/-! ## Replaced prefixes -/

/-- No payload that a verifier can read off `p ++ payload` collides with the payload. -/
def NoCollision (hmac : Mac) (secret p payload : Text) : Prop :=
  ∀ m, m <:+ p ++ payload → hmac secret m = hmac secret payload → m = payload

/-- Behind another prefix a sealed payload is read as itself or not at all. -/
private theorem sealed_read {p q payload payload' : Text}
    (hfree : NoCollision hmac secret p payload)
    (h : p ++ sealed ':' (hmac secret) payload = q ++ sealed ':' (hmac secret) payload') :
    p = q ∧ payload = payload' := by
  obtain ⟨htext, hmac'⟩ := append_sealed_inj (by decide) h
  have hpayload : payload' = payload := hfree payload' ⟨q, htext.symm⟩ hmac'.symm
  rw [hpayload] at htext
  exact ⟨List.append_cancel_right htext, hpayload.symm⟩

private theorem verifySession_sealed_eq_none_iff {p payload : Text}
    (hfree : NoCollision hmac secret p payload) :
    verifySession hmac url (p ++ sealed ':' (hmac secret) payload) secret now = none ↔
      ¬ (p = [] ∧ ∃ discordId encodedName expiresStr, payload.splitOn ':' =
        [discordId, encodedName, expiresStr] ∧
        Live now expiresStr ∧ (url.decode encodedName).isSome) := by
  rw [Option.eq_none_iff_forall_ne_some]
  constructor
  · rintro h ⟨rfl, discordId, encodedName, expiresStr, hsplit, hlive, hdecode⟩
    obtain ⟨displayName, hname⟩ := Option.isSome_iff_exists.1 hdecode
    exact h (discordId, displayName)
      (verifySession_eq_some_iff.2 ⟨payload, encodedName, expiresStr, hsplit, rfl, hlive, hname⟩)
  · intro h r hr
    obtain ⟨payload', encodedName, expiresStr, hsplit, htext, hlive, hdecode⟩ :=
      verifySession_eq_some_iff.1 hr
    obtain ⟨rfl, rfl⟩ := sealed_read (q := []) hfree htext
    exact h ⟨rfl, r.1, encodedName, expiresStr, hsplit, hlive, by rw [hdecode]; rfl⟩

private theorem verifyDweebSession_sealed_eq_none_iff {p payload : Text}
    (hfree : NoCollision hmac secret p payload) :
    verifyDweebSession hmac (p ++ sealed ':' (hmac secret) payload) secret now = none ↔
      ¬ (p = dweebPrefix ∧ ∃ discordId guildId expStr, payload.splitOn ':' =
        [discordId, guildId, expStr] ∧
        Live now expStr) := by
  rw [Option.eq_none_iff_forall_ne_some]
  constructor
  · rintro h ⟨rfl, discordId, guildId, expStr, hsplit, hlive⟩
    exact h { discordId, guildId }
      (verifyDweebSession_eq_some_iff.2 ⟨payload, expStr, hsplit, rfl, hlive⟩)
  · intro h r hr
    obtain ⟨payload', expStr, hsplit, htext, hlive⟩ := verifyDweebSession_eq_some_iff.1 hr
    obtain ⟨rfl, rfl⟩ := sealed_read hfree htext
    exact h ⟨rfl, r.discordId, r.guildId, expStr, hsplit, hlive⟩

private theorem verifyIframeSession_sealed_eq_none_iff {p payload : Text}
    (hfree : NoCollision hmac secret p payload) :
    verifyIframeSession hmac (p ++ sealed ':' (hmac secret) payload) secret now = none ↔
      ¬ (p = iframePrefix ∧ ∃ discordId guildId roleId roStr actStr expStr,
        payload.splitOn ':' = [discordId, guildId, roleId, roStr, actStr, expStr] ∧
        (readOnlyFlag roStr).isSome ∧ Live now expStr) := by
  rw [Option.eq_none_iff_forall_ne_some]
  constructor
  · rintro h ⟨rfl, discordId, guildId, roleId, roStr, actStr, expStr, hsplit, hflag, hlive⟩
    obtain ⟨readOnly, hflag⟩ := Option.isSome_iff_exists.1 hflag
    exact h { discordId, guildId, roleId, readOnly, actorId := if actStr = [] then none
      else some actStr }
      (verifyIframeSession_eq_some_iff.2 ⟨payload, roStr, actStr, expStr, hsplit, rfl, hflag, hlive,
        rfl⟩)
  · intro h r hr
    obtain ⟨payload', roStr, actStr, expStr, hsplit, htext, hflag, hlive, -⟩ :=
      verifyIframeSession_eq_some_iff.1 hr
    obtain ⟨rfl, rfl⟩ := sealed_read hfree htext
    exact h ⟨rfl, r.discordId, r.guildId, r.roleId, roStr, actStr, expStr, hsplit,
      by rw [hflag]; rfl, hlive⟩

/-! ## The fields of the three payloads -/

theorem colon_not_mem_ofInt (z : Int) : ':' ∉ ofInt z := by
  intro h
  rcases isDigit_or_eq_minus_of_mem_ofInt h with hdigit | hminus
  · exact absurd hdigit (by decide)
  · exact absurd hminus (by decide)

theorem live_ofInt_iff {z : Int} (hlow : -2 ^ 63 ≤ z) (hhigh : z < 2 ^ 63) :
    Live now (ofInt z) ↔ now.seconds ≤ z := by
  constructor
  · rintro ⟨exp, hexp, hnow⟩
    rw [parseI64_ofInt hlow hhigh] at hexp
    rwa [Option.some.inj hexp]
  · intro hnow
    exact ⟨z, parseI64_ofInt hlow hhigh, hnow⟩

theorem splitOn_sessionPayload (discordId displayName : Text) (expiresUnix : Int64) :
    (sessionPayload url discordId displayName expiresUnix).splitOn ':' =
      discordId.splitOn ':' ++ [url.encode displayName, ofInt expiresUnix.toInt] := by
  rw [sessionPayload, List.append_assoc, List.cons_append, List.splitOn_append_cons_self,
    List.splitOn_append_cons_self_of_not_mem (url.colonFree _),
      List.splitOn_eq_singleton (colon_not_mem_ofInt _)]

theorem splitOn_dweebPayload (discordId guildId : Text) (minted : Timestamp) :
    (dweebPayload discordId guildId minted).splitOn ':' =
      (discordId ++ ':' :: guildId).splitOn ':' ++ [ofInt (minted.seconds + dweebTtlSecs)] := by
  rw [dweebPayload, List.splitOn_append_cons_self,
    List.splitOn_eq_singleton (colon_not_mem_ofInt _)]

/-- The payload of a page token has six fields or more. -/
theorem length_splitOn_iframePayload (discordId guildId roleId : Text) (readOnly : Bool)
    (actorId : Option Text) (minted : Timestamp) :
    6 ≤ ((iframePayload discordId guildId roleId readOnly actorId minted).splitOn ':').length := by
  have hpos : ∀ s : Text, 0 < (s.splitOn ':').length :=
    fun s => List.length_pos_of_ne_nil (List.splitOn_ne_nil _ s)
  simp only [iframePayload, List.append_assoc, List.cons_append, List.splitOn_append_cons_self,
    List.length_append]
  have h₁ := hpos discordId
  have h₂ := hpos guildId
  have h₃ := hpos roleId
  have h₄ := hpos (if readOnly then "1".toList else "0".toList)
  have h₅ := hpos ((actorId.getD []).filter (· ≠ ':'))
  have h₆ := hpos (ofInt (minted.seconds + if readOnly then iframeRoTtlSecs else iframeTtlSecs))
  omega

/-! ## Separation -/

/-- No verifier of another kind accepts a picker token with `p` in place of its prefix. -/
def PickerTokenSeparated (hmac : Mac) (url : UrlEncoding) (secret p : Text) (now : Timestamp)
    (token : Text) : Prop :=
  ∀ rest, stripPrefix dweebPrefix token = some rest →
    verifySession hmac url (p ++ rest) secret now = none ∧
      verifyIframeSession hmac (p ++ rest) secret now = none

/-- No verifier of another kind accepts a page token with `p` in place of its prefix. -/
def PageTokenSeparated (hmac : Mac) (url : UrlEncoding) (secret p : Text) (now : Timestamp)
    (token : Text) : Prop :=
  ∀ rest, stripPrefix iframePrefix token = some rest →
    verifySession hmac url (p ++ rest) secret now = none ∧
      verifyDweebSession hmac (p ++ rest) secret now = none

/-- No verifier of a token accepts a session cookie behind `p`. -/
def CookieSeparated (hmac : Mac) (secret p : Text) (now : Timestamp) (cookie : Text) : Prop :=
  verifyDweebSession hmac (p ++ cookie) secret now = none ∧
    verifyIframeSession hmac (p ++ cookie) secret now = none

/-- The text has `n` colon-separated fields and the fourth is `0` or `1`. -/
def FlagFourth (n : Nat) (ids : Text) : Prop :=
  (ids.splitOn ':').length = n ∧
    ((ids.splitOn ':')[3]? = some "0".toList ∨ (ids.splitOn ':')[3]? = some "1".toList)

private theorem readOnlyFlag_isSome_iff {roStr : Text} :
    (readOnlyFlag roStr).isSome ↔ roStr = "0".toList ∨ roStr = "1".toList := by
  unfold readOnlyFlag
  split_ifs <;> simp_all

private theorem append_eq_pair_iff {xs ys : List Text} {x y : Text} (hxs : xs ≠ [])
    (hys : ys ≠ []) :
    xs ++ ys = [x, y] ↔ xs = [x] ∧ ys = [y] := by
  constructor
  · intro h
    have hlen := congrArg List.length h
    have hx := List.length_pos_of_ne_nil hxs
    have hy := List.length_pos_of_ne_nil hys
    simp only [List.length_append, List.length_cons, List.length_nil] at hlen
    have hone : xs.length = 1 := by omega
    have hjoined : xs ++ ys = [x] ++ [y] := h
    exact List.append_inj hjoined hone
  · rintro ⟨rfl, rfl⟩
    rfl

private theorem snoc_eq_iff {xs : List Text} {x y : Text} (ys : List Text) :
    xs ++ [x] = ys ++ [y] ↔ xs = ys ∧ x = y := by
  constructor
  · intro h
    obtain ⟨hxs, hx⟩ := List.append_inj' h rfl
    exact ⟨hxs, List.singleton_inj.1 hx⟩
  · rintro ⟨rfl, rfl⟩
    rfl

/-- The fields of a picker token are those of a session cookie when neither id holds a colon. -/
private theorem picker_reads_as_session {discordId guildId expStr : Text} :
    (∃ a b x, (discordId ++ ':' :: guildId).splitOn ':' ++ [expStr] = [a, b, x] ∧ Live now x ∧
      (url.decode b).isSome) ↔
      ':' ∉ discordId ∧ ':' ∉ guildId ∧ (url.decode guildId).isSome ∧ Live now expStr := by
  rw [List.splitOn_append_cons_self]
  constructor
  · rintro ⟨a, b, x, hsplit, hlive, hdecode⟩
    obtain ⟨hids, rfl⟩ := (snoc_eq_iff [a, b]).1 hsplit
    obtain ⟨hd, hg⟩ :=
      (append_eq_pair_iff (List.splitOn_ne_nil _ _) (List.splitOn_ne_nil _ _)).1 hids
    obtain ⟨rfl, hd⟩ := splitOn_eq_singleton_iff.1 hd
    obtain ⟨rfl, hg⟩ := splitOn_eq_singleton_iff.1 hg
    exact ⟨hd, hg, hdecode, hlive⟩
  · rintro ⟨hd, hg, hdecode, hlive⟩
    refine ⟨discordId, guildId, expStr, ?_, hlive, hdecode⟩
    rw [List.splitOn_eq_singleton hd, List.splitOn_eq_singleton hg]
    rfl

/-- The fields of a cookie are those of a picker token when the id holds no colon. -/
private theorem cookie_reads_as_picker {discordId name expStr : Text} :
    (∃ a b x, discordId.splitOn ':' ++ [name, expStr] = [a, b, x] ∧ Live now x) ↔
      ':' ∉ discordId ∧ Live now expStr := by
  constructor
  · rintro ⟨a, b, x, hsplit, hlive⟩
    have hjoined : discordId.splitOn ':' ++ [name, expStr] = [a] ++ [b, x] := hsplit
    obtain ⟨hd, hrest⟩ := List.append_inj' hjoined rfl
    obtain ⟨-, hrest⟩ := List.cons.inj hrest
    obtain ⟨rfl, hd⟩ := splitOn_eq_singleton_iff.1 hd
    rw [List.singleton_inj.1 hrest]
    exact ⟨hd, hlive⟩
  · rintro ⟨hd, hlive⟩
    refine ⟨discordId, name, expStr, ?_, hlive⟩
    rw [List.splitOn_eq_singleton hd]
    rfl

/-- Fields before an expiry are those of a page token when they are five with the flag fourth. -/
private theorem reads_as_page {ids : List Text} {expStr : Text} :
    (∃ a b c roStr actStr x, ids ++ [expStr] = [a, b, c, roStr, actStr, x] ∧
      (readOnlyFlag roStr).isSome ∧ Live now x) ↔
      (ids.length = 5 ∧ (ids[3]? = some "0".toList ∨ ids[3]? = some "1".toList)) ∧
        Live now expStr := by
  constructor
  · rintro ⟨a, b, c, roStr, actStr, x, hids, hflag, hlive⟩
    obtain ⟨rfl, rfl⟩ := (snoc_eq_iff [a, b, c, roStr, actStr]).1 hids
    refine ⟨⟨rfl, ?_⟩, hlive⟩
    rcases readOnlyFlag_isSome_iff.1 hflag with rfl | rfl
    · exact Or.inl rfl
    · exact Or.inr rfl
  · rintro ⟨⟨hlen, hflag⟩, hlive⟩
    match ids, hlen with
    | [a, b, c, roStr, actStr], _ =>
      refine ⟨a, b, c, roStr, actStr, expStr, rfl, readOnlyFlag_isSome_iff.2 ?_, hlive⟩
      exact hflag.imp Option.some.inj Option.some.inj

private theorem pickerTokenSeparated_iff {p discordId guildId : Text} {minted : Timestamp}
    (hfree : NoCollision hmac secret p (dweebPayload discordId guildId minted)) :
    PickerTokenSeparated hmac url secret p now
    (mintDweebSession hmac discordId guildId secret minted) ↔
      minted.seconds + dweebTtlSecs < now.seconds ∨
        ¬ (p = [] ∧ ':' ∉ discordId ∧ ':' ∉ guildId ∧ (url.decode guildId).isSome) ∧
          ¬ (p = iframePrefix ∧ FlagFourth 5 (discordId ++ ':' :: guildId)) := by
  have hlive : Live now (ofInt (minted.seconds + dweebTtlSecs)) ↔
      now.seconds ≤ minted.seconds + dweebTtlSecs := by
    have hrange := minted.inRange
    rw [dweebTtlSecs]
    exact live_ofInt_iff (by omega) (by omega)
  have hrest : ∀ rest,
    stripPrefix dweebPrefix (mintDweebSession hmac discordId guildId secret minted) = some rest ↔
      rest = sealed ':' (hmac secret) (dweebPayload discordId guildId minted) := fun rest => by
    rw [stripPrefix_eq_some_iff]
    constructor
    · intro h; exact (List.append_cancel_left h).symm
    · rintro rfl; rfl
  unfold PickerTokenSeparated
  simp only [hrest, forall_eq]
  rw [verifySession_sealed_eq_none_iff hfree, verifyIframeSession_sealed_eq_none_iff hfree,
    splitOn_dweebPayload,
    picker_reads_as_session, reads_as_page, hlive, FlagFourth]
  by_cases hnow : now.seconds ≤ minted.seconds + dweebTtlSecs
  · have hlate : ¬ minted.seconds + dweebTtlSecs < now.seconds := by omega
    simp only [hnow, hlate, and_true, false_or]
  · have hlate : minted.seconds + dweebTtlSecs < now.seconds := by omega
    simp only [hnow, hlate, and_false, not_false_iff, and_self, true_or]

private theorem cookieSeparated_iff {p discordId displayName : Text} {expiresUnix : Int64}
    (hfree : NoCollision hmac secret p (sessionPayload url discordId displayName expiresUnix)) :
    CookieSeparated hmac secret p now
    (mintSession hmac url discordId displayName expiresUnix secret) ↔
      expiresUnix.toInt < now.seconds ∨
        ¬ (p = dweebPrefix ∧ ':' ∉ discordId) ∧ ¬ (p = iframePrefix ∧ FlagFourth 4 discordId) := by
  have hlive : Live now (ofInt expiresUnix.toInt) ↔ now.seconds ≤ expiresUnix.toInt :=
    live_ofInt_iff expiresUnix.le_toInt expiresUnix.toInt_lt
  have hcookie : mintSession hmac url discordId displayName expiresUnix secret =
      sealed ':' (hmac secret) (sessionPayload url discordId displayName expiresUnix) := rfl
  have hfields : discordId.splitOn ':' ++ [url.encode displayName, ofInt expiresUnix.toInt] =
      (discordId.splitOn ':' ++ [url.encode displayName]) ++ [ofInt expiresUnix.toInt] := by simp
  have hflag : ((discordId.splitOn ':' ++ [url.encode displayName]).length = 5 ∧
      ((discordId.splitOn ':' ++ [url.encode displayName])[3]? = some "0".toList ∨
        (discordId.splitOn ':' ++ [url.encode displayName])[3]? = some "1".toList)) ↔
            FlagFourth 4 discordId := by
    have hfive : (discordId.splitOn ':').length + 1 = 5 ↔ (discordId.splitOn ':').length = 4 := by
      omega
    rw [List.length_append, List.length_singleton, hfive, FlagFourth]
    refine and_congr_right fun hlen => ?_
    rw [List.getElem?_append_left (by omega)]
  unfold CookieSeparated
  rw [hcookie, verifyDweebSession_sealed_eq_none_iff hfree,
    verifyIframeSession_sealed_eq_none_iff hfree,
    splitOn_sessionPayload, cookie_reads_as_picker, hfields, reads_as_page, hlive, hflag]
  by_cases hnow : now.seconds ≤ expiresUnix.toInt
  · have hlate : ¬ expiresUnix.toInt < now.seconds := by omega
    simp only [hnow, hlate, and_true, false_or]
  · have hlate : expiresUnix.toInt < now.seconds := by omega
    simp only [hnow, hlate, and_false, not_false_iff, and_self, true_or]

private theorem pageTokenSeparated {p discordId guildId roleId : Text} {readOnly : Bool}
    {actorId : Option Text} {minted : Timestamp}
    (hfree : NoCollision hmac secret p
      (iframePayload discordId guildId roleId readOnly actorId minted)) :
    PageTokenSeparated hmac url secret p now
      (mintIframeSession hmac discordId guildId roleId readOnly actorId secret minted) := by
  intro rest hrest
  have hcount := length_splitOn_iframePayload discordId guildId roleId readOnly actorId minted
  obtain rfl : rest = sealed ':' (hmac secret)
      (iframePayload discordId guildId roleId readOnly actorId minted) :=
    (List.append_cancel_left (stripPrefix_eq_some_iff.1 hrest)).symm
  rw [verifySession_sealed_eq_none_iff hfree, verifyDweebSession_sealed_eq_none_iff hfree]
  constructor
  · rintro ⟨-, a, b, x, hsplit, -⟩
    rw [hsplit] at hcount
    simp only [List.length_cons, List.length_nil] at hcount
    omega
  · rintro ⟨-, a, b, x, hsplit, -⟩
    rw [hsplit] at hcount
    simp only [List.length_cons, List.length_nil] at hcount
    omega

/-- A page token never passes for another credential.  An unexpired picker token passes for a
session cookie without its prefix, and an unexpired cookie for a picker token behind the prefix
`dws:`, whenever no id holds a colon; ids that hold colons can make either pass for a page token. -/
theorem credentials_separated_iff (hmac : Mac) (url : UrlEncoding) (secret p : Text)
    (minted now : Timestamp) (discordId guildId roleId displayName : Text) (readOnly : Bool)
    (actorId : Option Text) (expiresUnix : Int64)
    (hfree : ∀ payload ∈ [dweebPayload discordId guildId minted,
      iframePayload discordId guildId roleId readOnly actorId minted,
      sessionPayload url discordId displayName expiresUnix], NoCollision hmac secret p payload) :
    (PickerTokenSeparated hmac url secret p now
      (mintDweebSession hmac discordId guildId secret minted) ↔
      minted.seconds + dweebTtlSecs < now.seconds ∨
        ¬ (p = [] ∧ ':' ∉ discordId ∧ ':' ∉ guildId ∧ (url.decode guildId).isSome) ∧
          ¬ (p = iframePrefix ∧ FlagFourth 5 (discordId ++ ':' :: guildId))) ∧
    PageTokenSeparated hmac url secret p now
      (mintIframeSession hmac discordId guildId roleId readOnly actorId secret minted) ∧
    (CookieSeparated hmac secret p now
      (mintSession hmac url discordId displayName expiresUnix secret) ↔
      expiresUnix.toInt < now.seconds ∨
        ¬ (p = dweebPrefix ∧ ':' ∉ discordId) ∧ ¬ (p = iframePrefix ∧ FlagFourth 4 discordId)) := by
  have hpicker := hfree (dweebPayload discordId guildId minted) (by simp)
  have hpage := hfree (iframePayload discordId guildId roleId readOnly actorId minted) (by simp)
  have hcookie := hfree (sessionPayload url discordId displayName expiresUnix) (by simp)
  exact ⟨pickerTokenSeparated_iff hpicker, pageTokenSeparated hpage, cookieSeparated_iff hcookie⟩

/-! ## A picker token as a session cookie -/

/-- Key and message one after the other. -/
def concatMac : Mac := fun key message => bytes (key ++ message)

/-- Percent-encoding on letters and digits, which it leaves as they are. -/
def letterEncoding : UrlEncoding where
  encode s := s.filter (·.isAlphanum)
  decode s := some s
  colonFree s h := absurd (List.mem_filter.1 h).2 (by decide)

private theorem concatMac_noCollision (secret p payload : Text) :
    NoCollision concatMac secret p payload :=
  fun _ _ h => List.append_cancel_left (bytes_injective h)

def sampleTime : Timestamp := ⟨1700000000, by decide⟩

theorem credentials_separated_iff_alice :
    (∀ payload ∈ [dweebPayload "alice".toList "g1".toList sampleTime,
      iframePayload "alice".toList "g1".toList "r1".toList false none sampleTime,
      sessionPayload letterEncoding "alice".toList "Alice".toList 1700003600],
        NoCollision concatMac "secret".toList [] payload) ∧
    (PickerTokenSeparated concatMac letterEncoding "secret".toList [] sampleTime
      (mintDweebSession concatMac "alice".toList "g1".toList "secret".toList sampleTime) ↔
        sampleTime.seconds + dweebTtlSecs < sampleTime.seconds ∨
          ¬ (([] : Text) = [] ∧ ':' ∉ "alice".toList ∧ ':' ∉ "g1".toList ∧
            (letterEncoding.decode "g1".toList).isSome) ∧
          ¬ ([] = iframePrefix ∧ FlagFourth 5 ("alice".toList ++ ':' :: "g1".toList))) :=
  ⟨fun payload _ => concatMac_noCollision _ _ payload,
    (credentials_separated_iff concatMac letterEncoding "secret".toList
      [] sampleTime sampleTime "alice".toList "g1".toList "r1".toList
      "Alice".toList false none 1700003600 fun payload _ => concatMac_noCollision _ _ payload).1⟩

/-- A picker token of `alice` without its prefix is a session cookie of `alice`, and her session
cookie behind the prefix `dws:` is a picker token. -/
theorem credentials_not_separated :
    NoCollision concatMac "secret".toList [] (dweebPayload "alice".toList "g1".toList sampleTime) ∧
    ¬ PickerTokenSeparated concatMac letterEncoding "secret".toList [] sampleTime
      (mintDweebSession concatMac "alice".toList "g1".toList "secret".toList sampleTime) ∧
    NoCollision concatMac "secret".toList dweebPrefix
      (sessionPayload letterEncoding "alice".toList "Alice".toList 1700003600) ∧
    ¬ CookieSeparated concatMac "secret".toList dweebPrefix sampleTime
      (mintSession concatMac
        letterEncoding "alice".toList "Alice".toList 1700003600 "secret".toList) := by
  refine ⟨concatMac_noCollision _ _ _, fun h => ?_, concatMac_noCollision _ _ _, fun h => ?_⟩
  · have hnone := (h _ (stripPrefix_eq_some_iff.2 rfl)).1
    exact absurd hnone (by decide)
  · have hnone := h.1
    exact absurd hnone (by decide)

end FormRespondentRole
