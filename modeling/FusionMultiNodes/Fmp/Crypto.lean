import FusionMultiNodes.Fmp.Message

/-! The encryption of messages: what a ciphertext is bound to, and what decryption gives back. -/
namespace FusionMultiNodes

/-- A ciphertext is opened with its nonce and its associated data, and with no other data. -/
structure AesGcm.Ideal (aesgcm : AesGcm) : Prop where
  opens : ∀ nonce plaintext aad,
    aesgcm.decrypt nonce (aesgcm.encrypt nonce plaintext aad) aad = some plaintext
  binds : ∀ nonce plaintext aad nonce' aad',
    (aesgcm.decrypt nonce' (aesgcm.encrypt nonce plaintext aad) aad').isSome = true → aad' = aad

namespace FMPCrypto

variable (crypto : FMPCrypto)

/-- `encrypt`, with the nonce it draws; `none` where it raises. -/
def encrypt (nonce plaintext aad : Bytes) : Option Bytes :=
  crypto.aesgcm.map fun a => nonce ++ a.encrypt nonce plaintext aad

def encryptMessage (nonce : Bytes) (msg : FMPMessage) : Option FMPMessage :=
  (crypto.encrypt nonce msg.business.payload (aad msg.link)).map fun payload =>
    { msg with business := { msg.business with payload := payload }, encrypted := true }

/-- Whatever message carries the ciphertext, it is accepted only from the source and for the target
that it was encrypted for. -/
def Binds (msg : FMPMessage) : Prop :=
  ∀ nonce sent, nonce.length = 12 → crypto.encryptMessage nonce msg = some sent →
    ∀ received : FMPMessage, received.encrypted = true →
      received.business.payload = sent.business.payload →
      (crypto.decryptMessage received).isSome = true →
      received.link.sourceId = msg.link.sourceId ∧ received.link.targetId = msg.link.targetId

def RoundTrips (msg : FMPMessage) : Prop :=
  ∀ nonce, nonce.length = 12 →
    (crypto.encryptMessage nonce msg).bind crypto.decryptMessage = some msg

end FMPCrypto

theorem aad_eq_iff {link link' : FMPLinkLayer} : FMPCrypto.aad link' = FMPCrypto.aad link ↔
    link'.sourceId.toList ++ ':'::link'.targetId.toList =
      link.sourceId.toList ++ ':'::link.targetId.toList := by
  have hlist : ∀ l : FMPLinkLayer, (l.sourceId ++ ":" ++ l.targetId).toList =
      l.sourceId.toList ++ ':'::l.targetId.toList := by
    intro l
    rw [String.toList_append,String.toList_append,List.append_assoc]
    rfl
  rw [FMPCrypto.aad,FMPCrypto.aad,hlist,hlist]
  constructor
  · intro h
    have hdecoded := congrArg decodeUtf8 h
    rw [decodeUtf8_encodeUtf8,decodeUtf8_encodeUtf8] at hdecoded
    exact Option.some.inj hdecoded
  · exact congrArg encodeUtf8

/-- The associated data name one pair of ids, if neither has a colon. -/
theorem aad_unique {link link' : FMPLinkLayer} (hs : ':' ∉ link.sourceId.toList)
    (ht : ':' ∉ link.targetId.toList) (h : FMPCrypto.aad link' = FMPCrypto.aad link) :
    link'.sourceId = link.sourceId ∧ link'.targetId = link.targetId := by
  obtain ⟨hsource,-,htarget⟩ := (List.append_cons_inj_of_notMem hs ht).mp (aad_eq_iff.mp h).symm
  exact ⟨(String.toList_injective hsource).symm,(String.toList_injective htarget).symm⟩

theorem aad_shared {link : FMPLinkLayer}
    (h : ':' ∈ link.sourceId.toList ∨ ':' ∈ link.targetId.toList) :
    ∃ source target, (source,target) ≠ (link.sourceId,link.targetId) ∧
      FMPCrypto.aad { link with sourceId := source, targetId := target } =
        FMPCrypto.aad link := by
  rcases h with h | h
  · obtain ⟨a,b,hsplit⟩ := List.append_of_mem h
    refine ⟨String.ofList a,String.ofList (b ++ ':'::link.targetId.toList),?_,?_⟩
    · intro heq
      have hlength := congrArg (fun p => p.1.toList.length) heq
      simp only [String.toList_ofList,hsplit,List.length_append,List.length_cons] at hlength
      omega
    · rw [aad_eq_iff]
      simp [hsplit]
  · obtain ⟨a,b,hsplit⟩ := List.append_of_mem h
    refine ⟨String.ofList (link.sourceId.toList ++ ':'::a),String.ofList b,?_,?_⟩
    · intro heq
      have hlength := congrArg (fun p => p.2.toList.length) heq
      simp only [String.toList_ofList,hsplit,List.length_append,List.length_cons] at hlength
      omega
    · rw [aad_eq_iff]
      simp [hsplit]

namespace FMPCrypto

variable {aesgcm : AesGcm} {msg : FMPMessage}

theorem decrypt_of_encrypt {nonce aad aad' plaintext : Bytes} (hnonce : nonce.length = 12) :
    decrypt ⟨some aesgcm⟩ (nonce ++ aesgcm.encrypt nonce plaintext aad) aad' =
      aesgcm.decrypt nonce (aesgcm.encrypt nonce plaintext aad) aad' := by
  rw [decrypt,Option.bind_some,← hnonce,List.take_left,List.drop_left]

theorem isSome_decryptMessage {received : FMPMessage} (h : received.encrypted = true) :
    (decryptMessage ⟨some aesgcm⟩ received).isSome =
      (decrypt ⟨some aesgcm⟩ received.business.payload (aad received.link)).isSome := by
  rw [decryptMessage,if_pos h,Option.isSome_map]

/-- Ciphertexts are bound to their source and target if and only if no id has a colon. -/
theorem binds_iff (hideal : aesgcm.Ideal) : Binds ⟨some aesgcm⟩ msg ↔
    ':' ∉ msg.link.sourceId.toList ∧ ':' ∉ msg.link.targetId.toList := by
  constructor
  · intro hbinds
    by_contra hcolon
    obtain ⟨source,target,hne,haad⟩ := aad_shared (not_and_or.mp hcolon |>.imp not_not.mp not_not.mp)
    have haccepts := hbinds (List.replicate 12 0) _ List.length_replicate rfl
      { msg with
        link := { msg.link with sourceId := source, targetId := target }
        business := { msg.business with
          payload := List.replicate 12 0 ++
            aesgcm.encrypt (List.replicate 12 0) msg.business.payload (aad msg.link) }
        encrypted := true } rfl rfl (by
      rw [isSome_decryptMessage rfl,decrypt_of_encrypt List.length_replicate,haad,hideal.opens]
      rfl)
    exact hne (Prod.ext haccepts.1 haccepts.2)
  · rintro ⟨hs,ht⟩ nonce sent hnonce hsent received hencrypted hpayload haccepts
    obtain rfl := Option.some.inj hsent
    rw [isSome_decryptMessage hencrypted,hpayload,decrypt_of_encrypt hnonce] at haccepts
    exact aad_unique hs ht (hideal.binds _ _ _ _ _ haccepts)

theorem decryptsBack_iff (hideal : aesgcm.Ideal) :
    RoundTrips ⟨some aesgcm⟩ msg ↔ msg.encrypted = false := by
  have htrip : ∀ nonce : Bytes, nonce.length = 12 →
      (encryptMessage ⟨some aesgcm⟩ nonce msg).bind (decryptMessage ⟨some aesgcm⟩) =
        some { msg with encrypted := false } := by
    intro nonce hnonce
    simp only [encryptMessage,encrypt,Option.map_some,Option.bind_some,decryptMessage,if_true]
    rw [decrypt_of_encrypt hnonce,hideal.opens]
    rfl
  constructor
  · intro h
    have hback := (htrip _ List.length_replicate).symm.trans
      (h (List.replicate 12 0) List.length_replicate)
    exact (congrArg FMPMessage.encrypted (Option.some.inj hback)).symm
  · intro h nonce hnonce
    rw [htrip nonce hnonce,← h]

/-- With an ideal cipher, messages are bound to their source and target and come back from
encryption if and only if neither id has a colon and they were not encrypted before. -/
theorem binding_iff (aesgcm : AesGcm) (hideal : aesgcm.Ideal) (msg : FMPMessage) :
    Binds ⟨some aesgcm⟩ msg ∧ RoundTrips ⟨some aesgcm⟩ msg ↔
      (':' ∉ msg.link.sourceId.toList ∧ ':' ∉ msg.link.targetId.toList) ∧ msg.encrypted = false :=
  and_congr (binds_iff hideal) (decryptsBack_iff hideal)

/-- The plaintext with a mark before each byte, then another mark and the associated data. -/
def marked (plaintext aad : Bytes) : Bytes := plaintext.flatMap (fun b => [1,b]) ++ 0::aad

def unmarked : Bytes → Option (Bytes × Bytes)
  | [] => none
  | [m] => if m = 0 then some ([],[]) else none
  | m::b::rest =>
    if m = 0 then some ([],b::rest) else (unmarked rest).map fun p => (b::p.1,p.2)

theorem unmarked_marked (plaintext aad : Bytes) :
    unmarked (marked plaintext aad) = some (plaintext,aad) := by
  induction plaintext with
  | nil => cases aad <;> simp [marked,unmarked]
  | cons b plaintext ih =>
    have hcons : marked (b::plaintext) aad = 1::b::marked plaintext aad := rfl
    rw [hcons,unmarked,if_neg (by decide),ih]
    rfl

def clearCipher : AesGcm where
  encrypt _ plaintext aad := marked plaintext aad
  decrypt _ data aad := (unmarked data).bind fun p => if p.2 = aad then some p.1 else none

theorem ideal_clearCipher : clearCipher.Ideal where
  opens nonce plaintext aad := by
    simp only [clearCipher,unmarked_marked,Option.bind_some,if_true]
  binds nonce plaintext aad nonce' aad' h := by
    simp only [clearCipher,unmarked_marked,Option.bind_some] at h
    by_contra hne
    rw [if_neg (Ne.symm hne)] at h
    exact absurd h (by decide)

def helloMessage (sourceId targetId : String) : FMPMessage :=
  { messageId := "m", link := ⟨sourceId,targetId,0,3,[]⟩
    business := ⟨.control,[104,105],"",0,10⟩, control := ⟨.ack,0,.ofNat 0,0,64⟩ }

theorem binding_of_plain_ids : Binds ⟨some clearCipher⟩ (helloMessage "a" "b") ∧
    RoundTrips ⟨some clearCipher⟩ (helloMessage "a" "b") :=
  (binding_iff clearCipher ideal_clearCipher (helloMessage "a" "b")).mpr (by decide)

/-- What `a:b` sends to `c` is accepted as sent by `a` to `b:c`. -/
theorem colon_breaks_binding : ¬∀ (aesgcm : AesGcm), aesgcm.Ideal → ∀ msg : FMPMessage,
    Binds ⟨some aesgcm⟩ msg ∧ RoundTrips ⟨some aesgcm⟩ msg := by
  intro h
  have hbinds := (h clearCipher ideal_clearCipher (helloMessage "a:b" "c")).1
  have haccepts := hbinds (List.replicate 12 0) _ List.length_replicate rfl
    { helloMessage "a" "b:c" with
      business := { (helloMessage "a" "b:c").business with
        payload := List.replicate 12 0 ++ marked [104,105] (aad ⟨"a:b","c",0,3,[]⟩) }
      encrypted := true } rfl rfl (by decide)
  exact absurd haccepts.1 (by decide)

end FMPCrypto
end FusionMultiNodes
