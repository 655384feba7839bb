import Synciga.Internal.ListCodec
import Synciga.P2p.MessageBodies
import Synciga.Xml.Attributes

/-!
# Candidates that were written are read

The attributes of a candidate give back what it was written from, up to the id, the foundation and the related
address. The priority is only kept as far as the preference has it, and the text of the address becomes the host
name.

## Main definitions

* `Candidate.Fits`, `Candidate.asRead` — which candidates, and what they are read as

## Main results

* `parseCandidate_of_written` — for one candidate
-/

namespace Synciga.P2p

open Xmpp (qnType)
open ListCodec (bind_eq_ok_iff mapM_of_written forall_of_written)

/-! ### What is carried -/

/-- What a message has of a candidate: component, address, user name, password, protocol, type, network name and
generation. -/
def Candidate.carried (c : Candidate) : Candidate :=
  { c with id := "", priority := 0, foundation := "", relatedAddress := ⟨.unspec, 0⟩, hostname := "" }

/-- What a message has of a transport info: the type and the candidates. -/
def TransportInfo.carried (tinfo : TransportInfo) : TransportInfo :=
  ⟨tinfo.contentName,
    .ofCandidates tinfo.description.transportType (tinfo.description.candidates.map Candidate.carried)⟩

/-- The text of an address is read as the address. -/
def TextFormat.Restores (texts : TextFormat) : IPAddress → Prop
  | .unspec => texts.inetPton4 "" = none ∧ texts.inetPton6 "" = none
  | .ipv4 ip => texts.inetPton4 (texts.inetNtop (.ipv4 ip)) = some ip
  | .ipv6 w₀ w₁ w₂ w₃ =>
    texts.inetPton4 (texts.inetNtop (.ipv6 w₀ w₁ w₂ w₃)) = none ∧
      texts.inetPton6 (texts.inetNtop (.ipv6 w₀ w₁ w₂ w₃)) = some (w₀, w₁, w₂, w₃)

/-- Its user name is in order, its texts can be read and the reader knows the component, by the writer's name
for it. -/
structure Candidate.Fits (texts : TextFormat) (writer : CandidateTranslator)
    (reader : Option CandidateTranslator) (c : Candidate) : Prop where
  base64 : isBase64Encoded c.username = true
  short : c.username.length ≤ kMaxGiceUsernameSize
  address : texts.Restores c.address.ip
  preference : (texts.priorityFromString (texts.preferenceToString c.priority)).isSome
  component : ∀ channelName, writer.getChannelNameFromComponent c.component = some channelName →
    reader.bind (·.getComponentFromChannelName channelName) = some c.component

/-- The candidate that is read of the one that was written. -/
def Candidate.asRead (texts : TextFormat) (c : Candidate) : Candidate :=
  { c with
    id := ""
    priority := (texts.priorityFromString (texts.preferenceToString c.priority)).getD 0
    foundation := ""
    relatedAddress := ⟨.unspec, 0⟩
    hostname := texts.ipToString c.address.ip }

@[simp] theorem Candidate.carried_asRead (texts : TextFormat) (c : Candidate) :
    (c.asRead texts).carried = c.carried := rfl

/-! ### Texts -/

variable {texts : TextFormat}

theorem ipFromString_ipToString {ip : IPAddress} (h : texts.Restores ip) :
    texts.ipFromString (texts.ipToString ip) = ip := by
  cases ip with
  | unspec => simp [TextFormat.ipToString, TextFormat.ipFromString, h.1, h.2]
  | ipv4 ip =>
    have h4 : texts.inetPton4 (texts.inetNtop (.ipv4 ip)) = some ip := h
    simp [TextFormat.ipToString, TextFormat.ipFromString, h4]
  | ipv6 w₀ w₁ w₂ w₃ => simp [TextFormat.ipToString, TextFormat.ipFromString, h.1, h.2]

theorem port_repr (port : UInt16) : UInt16.ofInt (extractInt (Nat.repr port.toNat)) = port := by
  have hlt : port.toNat < 2 ^ 16 := port.toNat_lt
  have hmod : ((port.toNat : ℤ) % 2 ^ 16).toNat = port.toNat := by omega
  rw [extractInt_repr (by omega), UInt16.ofInt, hmod, UInt16.ofNat_toNat]

theorem isBase64Char_le {c : Char} (h : isBase64Char c = true) : c.val.toNat ≤ 127 := by
  simp only [isBase64Char, Bool.or_eq_true, Bool.and_eq_true, decide_eq_true_eq] at h
  rcases h with (((⟨_, h⟩ | ⟨_, h⟩) | ⟨_, h⟩) | rfl) | rfl
  · have hle : c.val.toNat ≤ 90 := h
    omega
  · have hle : c.val.toNat ≤ 122 := h
    omega
  · have hle : c.val.toNat ≤ 57 := h
    omega
  · decide
  · decide

theorem utf8_length_of_base64 {text : String} (h : isBase64Encoded text = true) :
    (utf8 text).length = text.length := by
  have hall : ∀ chars : List Char, chars.all isBase64Char = true →
      (chars.flatMap String.utf8EncodeChar).length = chars.length := by
    intro chars
    induction chars with
    | nil =>
      intro _
      rfl
    | cons c chars ih =>
      intro hchars
      rw [List.all_cons, Bool.and_eq_true] at hchars
      have hsize : (String.utf8EncodeChar c).length = 1 := by
        rw [String.length_utf8EncodeChar, Char.utf8Size_eq_one_iff, UInt32.le_iff_toNat_le]
        exact isBase64Char_le hchars.1
      rw [List.flatMap_cons, List.length_append, hsize, ih hchars.2, List.length_cons]
      omega
  rw [utf8, hall _ h]
  exact String.length_toList

theorem verifyUsernameFormat_of_base64 {username : String} (hbase : isBase64Encoded username = true)
    (hshort : username.length ≤ kMaxGiceUsernameSize) : verifyUsernameFormat .google username = .ok () := by
  rw [verifyUsernameFormat, utf8_length_of_base64 hbase, if_neg (not_lt.mpr hshort), if_neg (by simp [hbase])]

/-! ### One candidate -/

variable (elem : XmlElement)

@[simp] theorem name_setAttrIfNonEmpty (name : QName) (value : String) :
    (setAttrIfNonEmpty elem name value).name = elem.name := by
  rw [setAttrIfNonEmpty]
  split <;> simp

@[simp] theorem attr_setAttrIfNonEmpty (name name' : QName) (value : String) :
    (setAttrIfNonEmpty elem name value).attr name' =
      if name = name' ∧ value ≠ "" then value else elem.attr name' := by
  by_cases hvalue : value = "" <;> simp [setAttrIfNonEmpty, hvalue]

@[simp] theorem hasAttr_setAttrIfNonEmpty (name name' : QName) (value : String) :
    (setAttrIfNonEmpty elem name value).hasAttr name' =
      (decide (name = name' ∧ value ≠ "") || elem.hasAttr name') := by
  by_cases hvalue : value = "" <;> simp [setAttrIfNonEmpty, hvalue]

section Written

variable (texts : TextFormat) (c : Candidate) (channelName : String) (name : QName)

theorem hasAttr_candidateAttrs :
    ∀ attr ∈ [qnName, qnAddress, qnPort, qnPreference, qnUsername, qnProtocol, qnGeneration, qnType],
      (candidateAttrs texts c channelName (XmlElement.ofName name)).hasAttr attr = true := by
  simp [candidateAttrs]

theorem attr_candidateAttrs :
    let elem := candidateAttrs texts c channelName (XmlElement.ofName name)
    elem.attr qnName = channelName ∧ elem.attr qnAddress = texts.ipToString c.address.ip ∧
      elem.attr qnPort = Nat.repr c.address.port.toNat ∧
      elem.attr qnPreference = texts.preferenceToString c.priority ∧
      elem.attr qnUsername = c.username ∧
      elem.attr qnProtocol = c.protocol ∧
      elem.attr qnGeneration = Nat.repr c.generation.toNat ∧
      elem.attr qnType = c.type := by
  simp [candidateAttrs, qnName, qnAddress, qnPort, qnPreference, qnUsername, qnProtocol, qnGeneration, qnType,
    qnPassword, qnNetwork]

theorem password_candidateAttrs :
    let elem := candidateAttrs texts c channelName (XmlElement.ofName name)
    (if elem.hasAttr qnPassword then elem.attr qnPassword else "") = c.password := by
  by_cases hpassword : c.password = "" <;>
    simp [candidateAttrs, qnName, qnAddress, qnPort, qnPreference, qnUsername, qnProtocol, qnGeneration, qnType,
      qnPassword, qnNetwork, hpassword]

theorem network_candidateAttrs :
    let elem := candidateAttrs texts c channelName (XmlElement.ofName name)
    (if elem.hasAttr qnNetwork then elem.attr qnNetwork else "") = c.networkName := by
  by_cases hnetwork : c.networkName = "" <;>
    simp [candidateAttrs, qnName, qnAddress, qnPort, qnPreference, qnUsername, qnProtocol, qnGeneration, qnType,
      qnPassword, qnNetwork, hnetwork]

theorem parseCandidate_of_written {writer : CandidateTranslator} {reader : Option CandidateTranslator}
    (hfits : c.Fits texts writer reader) {elem : XmlElement}
    (h : writeCandidate texts c (some writer) (XmlElement.ofName name) = .ok elem) :
    parseCandidate texts .google elem reader = .ok (c.asRead texts) := by
  rcases hwriter : writer.getChannelNameFromComponent c.component with _ | channelName
  · rw [writeCandidate, Option.bind_some, hwriter] at h
    cases h
  rw [writeCandidate, Option.bind_some, hwriter] at h
  cases h
  obtain ⟨priority, hpriority⟩ := Option.isSome_iff_exists.mp hfits.preference
  have hhas := hasAttr_candidateAttrs texts c channelName name
  obtain ⟨hname, haddress, hport, hpreference, husername, hprotocol, hgeneration, htype⟩ :=
    attr_candidateAttrs texts c channelName name
  have hpassword := password_candidateAttrs texts c channelName name
  have hnetwork := network_candidateAttrs texts c channelName name
  simp only [List.forall_mem_cons] at hhas
  obtain ⟨hasName, hasAddress, hasPort, hasPreference, hasUsername, hasProtocol, hasGeneration, hasType, -⟩ :=
    hhas
  have hparse : parseAddress texts (candidateAttrs texts c channelName (XmlElement.ofName name)) =
      .ok (c.address, texts.ipToString c.address.ip) := by
    simp only [parseAddress, hasAddress, hasPort, not_true_eq_false, if_false, haddress, hport,
      ipFromString_ipToString hfits.address, port_repr]
  have hverify := verifyUsernameFormat_of_base64 hfits.base64 hfits.short
  rw [parseCandidate, if_neg (by simp [hasName, hasAddress, hasPort, hasUsername, hasProtocol, hasGeneration]),
    hparse]
  simp only [hname, hfits.component channelName hwriter, hasPreference, if_true, hpreference, hpriority,
    husername, hverify, hprotocol, hpassword, hasType, htype, hnetwork, hgeneration, extractUInt32_repr,
    Candidate.asRead, Option.getD_some]
  rfl

theorem name_candidateAttrs (elem : XmlElement) :
    (candidateAttrs texts c channelName elem).name = elem.name := by
  simp [candidateAttrs]

end Written

theorem name_of_written {c : Candidate} {writer : CandidateTranslator}
    {elem elem' : XmlElement} (h : writeCandidate texts c (some writer) elem = .ok elem') :
    elem'.name = elem.name := by
  rw [writeCandidate] at h
  split at h
  · cases h
  · cases h
    exact name_candidateAttrs texts c _ elem

/-! ### Children -/

variable (parent : XmlElement)

@[simp] theorem name_addXmlChildren (children : List XmlElement) :
    (addXmlChildren parent children).name = parent.name :=
  List.foldlRecOn (motive := fun e : XmlElement => e.name = parent.name) children _ rfl fun _ h _ _ => h

@[simp] theorem attr_addXmlChildren (children : List XmlElement) (name : QName) :
    (addXmlChildren parent children).attr name = parent.attr name :=
  List.foldlRecOn (motive := fun e : XmlElement => e.attr name = parent.attr name) children _ rfl fun _ h _ _ => h

@[simp] theorem hasAttr_addXmlChildren (children : List XmlElement) (name : QName) :
    (addXmlChildren parent children).hasAttr name = parent.hasAttr name :=
  List.foldlRecOn (motive := fun e : XmlElement => e.hasAttr name = parent.hasAttr name) children _ rfl
      fun _ h _ _ => h

@[simp] theorem elements_addXmlChildren (children : List XmlElement) :
    (addXmlChildren parent children).elements = parent.elements ++ children := by
  induction children generalizing parent with
  | nil => simp [addXmlChildren]
  | cons child children ih =>
    rw [addXmlChildren, List.foldl_cons]
    refine (ih (parent.addElement child)).trans ?_
    simp

/-! ### Transport infos -/

/-- The transport info that is read of the one that was written. -/
def TransportInfo.asRead (texts : TextFormat) (tinfo : TransportInfo) : TransportInfo :=
  ⟨tinfo.contentName,
    .ofCandidates tinfo.description.transportType (tinfo.description.candidates.map (·.asRead texts))⟩

@[simp] theorem TransportInfo.carried_asRead (texts : TextFormat) (tinfo : TransportInfo) :
    (tinfo.asRead texts).carried = tinfo.carried := by
  simp [TransportInfo.asRead, TransportInfo.carried, TransportDescription.ofCandidates, Function.comp_def]

theorem parseTransportDescription_of_written {desc : TransportDescription}
    {writer : CandidateTranslator} {reader : Option CandidateTranslator} {elem : XmlElement}
    (hfits : ∀ c ∈ desc.candidates, c.Fits texts writer reader) (htype : desc.transportType = NS_GINGLE_P2P)
    (h : writeTransportDescription texts desc (some writer) = .ok elem) :
    elem.name = ⟨NS_GINGLE_P2P, lnTransport⟩ ∧ parseTransportDescription texts elem reader =
      .ok (.ofCandidates NS_GINGLE_P2P (desc.candidates.map (·.asRead texts))) := by
  rw [writeTransportDescription] at h
  split at h
  · cases h
  obtain ⟨elems, hwrite, helem⟩ := bind_eq_ok_iff.mp h
  cases helem
  have hname : (addXmlChildren (newTransportElement desc.transportType) elems).name =
      ⟨NS_GINGLE_P2P, lnTransport⟩ := by
    rw [name_addXmlChildren, htype]
    rfl
  have hchildren : (addXmlChildren (newTransportElement desc.transportType) elems).elements = elems := by
    rw [elements_addXmlChildren]
    rfl
  have hfilter : elems.filter (·.name.localPart = lnCandidate) = elems := by
    rw [List.filter_eq_self]
    refine forall_of_written ?_ hwrite
    intro c _ elem hc
    rw [name_of_written hc]
    rfl
  have hread : elems.mapM (parseCandidate texts .google · reader) =
      .ok (desc.candidates.map (·.asRead texts)) := by
    refine mapM_of_written ?_ hwrite
    intro c hc elem helem
    exact parseCandidate_of_written texts c _ (hfits c hc) helem
  refine ⟨hname, ?_⟩
  rw [parseTransportDescription, hname, if_neg (not_not.mpr rfl), hchildren, hfilter, hread]
  rfl

theorem of_getParserAndTranslatorToWrite {translators : CandidateTranslatorMap}
    {transportType contentName : String} {translator : CandidateTranslator}
    (h : getParserAndTranslatorToWrite translators transportType contentName = .ok translator) :
    transportType = NS_GINGLE_P2P ∧ translators contentName = some translator := by
  rw [getParserAndTranslatorToWrite] at h
  split at h
  · rename_i htype
    split at h
    · cases h
    · rename_i htranslator
      cases h
      exact ⟨by simpa [hasTransportParser] using htype, htranslator⟩
  · cases h

theorem parseJingleTransportInfo_of_written {writers readers : CandidateTranslatorMap}
    {tinfo : TransportInfo} {elem : XmlElement}
    (hfits : ∀ writer, writers tinfo.contentName = some writer →
      ∀ c ∈ tinfo.description.candidates, c.Fits texts writer (readers tinfo.contentName))
    (h : writeJingleTransportInfo texts writers tinfo = .ok elem) :
    elem.name.localPart = lnTransport ∧
      parseJingleTransportInfo texts readers elem tinfo.contentName = .ok (tinfo.asRead texts) := by
  obtain ⟨writer, hwriter, hwrite⟩ := bind_eq_ok_iff.mp h
  obtain ⟨htype, hname⟩ := of_getParserAndTranslatorToWrite hwriter
  obtain ⟨helem, hparse⟩ := parseTransportDescription_of_written (hfits writer hname) htype hwrite
  refine ⟨by rw [helem], ?_⟩
  rw [parseJingleTransportInfo, helem]
  rw [bind_eq_ok_iff]
  refine ⟨readers tinfo.contentName, rfl, ?_⟩
  rw [hparse, TransportInfo.asRead, htype]
  rfl

end Synciga.P2p
