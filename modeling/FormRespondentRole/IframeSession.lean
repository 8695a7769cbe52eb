import FormRespondentRole.CredentialKinds

/-!
# The fields of a page token

The payload of a page token is a colon-joined text of fields that are not escaped.  It reads as six
fields only when the three ids hold no colon, and then as the fields that it was joined
from. -/

namespace FormRespondentRole

open Foundations Text

/-- The actor that a token for `actorId` names. -/
def strippedActor (actorId : Option Text) : Option Text :=
  let act := (actorId.getD []).filter (· ≠ ':')
  if act = [] then none else some act

/-- The last second at which a page token is accepted. -/
def iframeExpiry (readOnly : Bool) (minted : Timestamp) : Int :=
  minted.seconds + if readOnly then iframeRoTtlSecs else iframeTtlSecs

/-- The text that the signature of a page token covers: the first six of its seven parts. -/
def signedPayload (token : Text) : Option Text :=
  (stripPrefix iframePrefix token).map fun rest => [':'].intercalate ((splitn ':' 7 rest).take 6)

private def roText (readOnly : Bool) : Text := if readOnly then "1".toList else "0".toList

private theorem readOnlyFlag_roText (readOnly : Bool) :
    readOnlyFlag (roText readOnly) = some readOnly := by
  cases readOnly <;> rfl

private theorem splitOn_iframePayload (discordId guildId roleId : Text) (readOnly : Bool)
    (actorId : Option Text) (minted : Timestamp) :
    (iframePayload discordId guildId roleId readOnly actorId minted).splitOn ':' =
      discordId.splitOn ':' ++ (guildId.splitOn ':' ++ (roleId.splitOn ':' ++
        [roText readOnly, (actorId.getD []).filter (· ≠ ':'),
          ofInt (iframeExpiry readOnly minted)])) := by
  have hro : ':' ∉ roText readOnly := by cases readOnly <;> decide
  have hact : ':' ∉ (actorId.getD []).filter (· ≠ ':') :=
    fun h => absurd (List.mem_filter.1 h).2 (by decide)
  have hexp : ':' ∉ ofInt (iframeExpiry readOnly minted) := colon_not_mem_ofInt _
  have hpayload : iframePayload discordId guildId roleId readOnly actorId minted =
      discordId ++ ':' :: (guildId ++ ':' :: (roleId ++ ':' :: (roText readOnly ++ ':' ::
        ((actorId.getD []).filter (· ≠ ':') ++ ':' :: ofInt (iframeExpiry readOnly minted))))) := by
    simp only [iframePayload, roText, iframeExpiry, List.append_assoc, List.cons_append]
  rw [hpayload, List.splitOn_append_cons_self, List.splitOn_append_cons_self,
    List.splitOn_append_cons_self,
    List.splitOn_append_cons_self_of_not_mem hro, List.splitOn_append_cons_self_of_not_mem hact,
    List.splitOn_eq_singleton hexp]

/-- Three lists of fields that make three fields are one field each. -/
private theorem append_eq_triple {xs ys zs : List Text} {x y z : Text} (hxs : xs ≠ [])
    (hys : ys ≠ []) (hzs : zs ≠ []) {us vs : List Text} (hlen : us.length = vs.length)
    (h : xs ++ (ys ++ (zs ++ us)) = x :: y :: z :: vs) :
    xs = [x] ∧ ys = [y] ∧ zs = [z] ∧ us = vs := by
  have hcount := congrArg List.length h
  simp only [List.length_append, List.length_cons] at hcount
  have hx := List.length_pos_of_ne_nil hxs
  have hy := List.length_pos_of_ne_nil hys
  have hz := List.length_pos_of_ne_nil hzs
  obtain ⟨x', rfl⟩ := List.length_eq_one_iff.1 (show xs.length = 1 by omega)
  obtain ⟨y', rfl⟩ := List.length_eq_one_iff.1 (show ys.length = 1 by omega)
  obtain ⟨z', rfl⟩ := List.length_eq_one_iff.1 (show zs.length = 1 by omega)
  simp only [List.singleton_append, List.cons.injEq] at h
  obtain ⟨rfl, rfl, rfl, rfl⟩ := h
  exact ⟨rfl, rfl, rfl, rfl⟩

section

variable {hmac : Mac} {secret : Text} {now minted : Timestamp} {discordId guildId roleId : Text}
  {readOnly : Bool}
  {actorId : Option Text}

private theorem live_iframeExpiry : Live now (ofInt (iframeExpiry readOnly minted)) ↔
    now.seconds ≤ iframeExpiry readOnly minted := by
  have hrange := minted.inRange
  have hlow : -2 ^ 63 ≤ iframeExpiry readOnly minted := by
    cases readOnly <;> simp only [iframeExpiry, iframeRoTtlSecs, iframeTtlSecs] <;> omega
  have hhigh : iframeExpiry readOnly minted < 2 ^ 63 := by
    cases readOnly <;> simp only [iframeExpiry, iframeRoTtlSecs, iframeTtlSecs] <;> omega
  exact live_ofInt_iff hlow hhigh

private theorem mintIframeSession_eq :
    mintIframeSession hmac discordId guildId roleId readOnly actorId secret minted =
    iframePrefix ++ sealed ':' (hmac secret)
    (iframePayload discordId guildId roleId readOnly actorId minted) := rfl

/-- What an accepted token signs, when that is what a mint signs, are the arguments of the mint. -/
private theorem session_of_signedPayload {token : Text} {s : IframeSession}
    (h : verifyIframeSession hmac token secret now = some s)
    (hsigned : signedPayload token =
      some (iframePayload discordId guildId roleId readOnly actorId minted)) :
    s = ⟨discordId, guildId, roleId, readOnly, strippedActor actorId⟩ := by
  obtain ⟨payload, roStr, actStr, expStr, hsplit, rfl, hflag, -, hactor⟩ :=
    verifyIframeSession_eq_some_iff.1 h
  have hparts : splitn ':' 7 (sealed ':' (hmac secret) payload) = payload.splitOn ':' ++
      [hexEncode (hmac secret ([':'].intercalate (payload.splitOn ':')))] :=
    (splitn_sealed_iff (n := 5) (by rw [hsplit]; rfl)).2 ⟨payload, rfl, rfl⟩
  have htake : (splitn ':' 7 (sealed ':' (hmac secret) payload)).take 6 = payload.splitOn ':' := by
    rw [hparts]
    exact List.take_left' (by rw [hsplit]; rfl)
  have hpayload : payload = iframePayload discordId guildId roleId readOnly actorId minted := by
    rw [signedPayload, stripPrefix_eq_some_iff.2 rfl, Option.map_some, htake,
      List.intercalate_splitOn] at hsigned
    exact Option.some.inj hsigned
  have hfields := splitOn_iframePayload discordId guildId roleId readOnly actorId minted
  rw [← hpayload, hsplit] at hfields
  obtain ⟨hd, hg, hr, hrest⟩ := append_eq_triple (List.splitOn_ne_nil _ _) (List.splitOn_ne_nil _ _)
    (List.splitOn_ne_nil _ _) (by rfl) hfields.symm
  obtain ⟨rfl, hlast⟩ := List.cons.inj hrest
  obtain ⟨rfl, -⟩ := List.cons.inj hlast
  have hreadOnly : readOnly = s.readOnly :=
    Option.some.inj ((readOnlyFlag_roText readOnly).symm.trans hflag)
  obtain ⟨sd, sg, sr, sro, sact⟩ := s
  simp only [(splitOn_eq_singleton_iff.1 hd).1, (splitOn_eq_singleton_iff.1 hg).1,
    (splitOn_eq_singleton_iff.1 hr).1]
  rw [hreadOnly]
  exact congrArg _ hactor

/-- A token for ids without colons is read as the arguments it was minted for, until it expires. -/
private theorem verify_mint (hd : ':' ∉ discordId) (hg : ':' ∉ guildId) (hr : ':' ∉ roleId) :
    verifyIframeSession hmac
    (mintIframeSession hmac discordId guildId roleId readOnly actorId secret minted) secret now =
      if now.seconds ≤ iframeExpiry readOnly minted then
        some ⟨discordId, guildId, roleId, readOnly, strippedActor actorId⟩
      else none := by
  have hsplit := splitOn_iframePayload discordId guildId roleId readOnly actorId minted
  rw [List.splitOn_eq_singleton hd, List.splitOn_eq_singleton hg,
    List.splitOn_eq_singleton hr] at hsplit
  rw [mintIframeSession_eq]
  split
  · rename_i hnow
    exact verifyIframeSession_eq_some_iff.2 ⟨_, _, _, _, hsplit, rfl, readOnlyFlag_roText readOnly,
      live_iframeExpiry.2 hnow, rfl⟩
  · rename_i hnow
    rw [Option.eq_none_iff_forall_ne_some]
    intro s hs
    obtain ⟨payload, roStr, actStr, expStr, hsplit', htoken, -, hlive, -⟩ :=
      verifyIframeSession_eq_some_iff.1 hs
    obtain ⟨hpayload, -⟩ :=
      append_sealed_inj (p := []) (q := []) (by decide) (List.append_cancel_left htoken)
    rw [List.nil_append, List.nil_append] at hpayload
    have hfields := hsplit'.symm.trans (hpayload ▸ hsplit)
    simp only [List.singleton_append, List.cons.injEq, and_true] at hfields
    obtain ⟨-, -, -, -, -, rfl⟩ := hfields
    exact hnow (live_iframeExpiry.1 hlive)

end

/-- A page token for ids without colons is accepted until it expires, as what it was minted for; and
whatever the fields hold, an accepted token that signs what a mint signs is read as the ids, the
flag and the actor of that mint. -/
theorem iframe_session_binds (hmac : Mac) (secret : Text) (now : Timestamp) :
    (∀ discordId guildId roleId readOnly actorId minted, ':' ∉ discordId → ':' ∉ guildId →
      ':' ∉ roleId →
      verifyIframeSession hmac
      (mintIframeSession hmac discordId guildId roleId readOnly actorId secret minted) secret now =
        if now.seconds ≤ iframeExpiry readOnly minted then
          some ⟨discordId, guildId, roleId, readOnly, strippedActor actorId⟩
        else none) ∧
    ∀ token s discordId guildId roleId readOnly actorId minted,
      verifyIframeSession hmac token secret now = some s →
      signedPayload token = some (iframePayload discordId guildId roleId readOnly actorId minted) →
        s = ⟨discordId, guildId, roleId, readOnly, strippedActor actorId⟩ :=
  ⟨fun _ _ _ _ _ _ hd hg hr => verify_mint hd hg hr, fun _ _ _ _ _ _ _ _ h hsigned =>
    session_of_signedPayload h hsigned⟩

/-- The token of an impersonation session of `alice`, whose actor is given with a colon. -/
def aliceToken : Text :=
  mintIframeSession concatMac "alice".toList "g1".toList "r1".toList true
    (some "d:ev".toList) "secret".toList sampleTime

theorem iframe_session_binds_alice :
    verifyIframeSession concatMac aliceToken "secret".toList sampleTime =
      some ⟨"alice".toList, "g1".toList, "r1".toList, true, some "dev".toList⟩ ∧
    ∀ s, verifyIframeSession concatMac aliceToken "secret".toList sampleTime = some s →
      s = ⟨"alice".toList, "g1".toList, "r1".toList, true, some "dev".toList⟩ :=
  have hsigned : signedPayload aliceToken =
      some (iframePayload "alice".toList "g1".toList "r1".toList true
        (some "d:ev".toList) sampleTime) := by decide
  ⟨(iframe_session_binds concatMac "secret".toList sampleTime).1 _ _ _ _ _ _ (by decide) (by decide)
    (by decide),
    fun s h => (iframe_session_binds concatMac "secret".toList sampleTime).2 _ s _ _ _ _ _ _
      h hsigned⟩

end FormRespondentRole
