import Synciga.P2p.CandidateRoundTrip

/-!
# Session messages that were written are read

In Jingle all that a session sends can be read again; a reject becomes a terminate, and the one group that is
written has all contents. In Gingle there are no names and no groups, the one description is of a content that
is no media, of audio, or of audio and video, and candidates come back by the names of their channels. What a
parser of contents does with a description is not part of this.

## Main definitions

* `SessionAction.Fits`, `SessionAction.received` — which actions, and what they are read as

## Main results

* `SessionAction.read_of_written` — for each that fits
* `not_read_as_written` — one with what Gingle cannot carry
-/

namespace Synciga.P2p

open Xmpp (qnType qnId qnTo qnIq)
open ListCodec (bind_eq_ok_iff mapM_eq_ok_iff mapM_filterMap_of_forall₂ mapM_of_forall₂ mapM_of_written
  exists_of_forall₂ forall_of_forall₂ forall_of_written)

variable {D : Type}

/-! ### What is received -/

/-- What a message has of the contents with their transports. -/
def ContentMessage.carried (message : ContentMessage D) : ContentMessage D :=
  { message with transports := message.transports.map TransportInfo.carried }

/-- What a message has of an action. -/
def SessionAction.carried : SessionAction D → SessionAction D
  | .initiate message => .initiate message.carried
  | .accept message => .accept message.carried
  | .transportInfo tinfos => .transportInfo (tinfos.map TransportInfo.carried)
  | action => action

/-- The names of the contents that the reader of a Gingle message has transports for. -/
def gingleContentNames (contentNames : List String) : List String :=
  if cnAudio ∉ contentNames ∧ cnVideo ∉ contentNames then [cnOther]
  else (if cnAudio ∈ contentNames then [cnAudio] else []) ++
    (if cnVideo ∈ contentNames then [cnVideo] else [])

/-- The name of the content that the reader of a Gingle message takes a candidate to be of. -/
def gingleContentName (contentNames : List String) (channelName : String) : Option String :=
  if cnAudio ∉ contentNames ∧ cnVideo ∉ contentNames then some cnOther
  else mediaContentName (cnAudio ∈ contentNames) (cnVideo ∈ contentNames) channelName

/-- The candidates of a content, in the order of the transport infos. -/
def gatherCandidates (names : String → String) (tinfos : List TransportInfo) (contentName : String) :
    List Candidate :=
  (tinfos.filter (names ·.contentName = contentName)).flatMap (·.description.candidates)

/-- The transport infos of the contents, under the names that the reader has for them. -/
def gatherTransportInfos (names : String → String) (contentNames : List String) (tinfos : List TransportInfo) :
    List TransportInfo :=
  contentNames.map fun name => ⟨name, .ofCandidates NS_GINGLE_P2P (gatherCandidates names tinfos name)⟩

/-- What the reader should get: in Jingle, the contents with their transports and groups; in Gingle, the
contents under its own names, with their candidates. -/
def ContentMessage.received (protocol : SignalingProtocol) (names : String → String)
    (message : ContentMessage D) : ContentMessage D :=
  match protocol with
  | .gingle =>
    { contents := message.contents.map fun c => { c with name := names c.name }
      transports := gatherTransportInfos names
        (gingleContentNames (message.contents.map fun c => names c.name)) message.transports
      groups := [] }
  | _ =>
    { message with
      transports := message.contents.filterMap fun c => getTransportInfoByContentName message.transports c.name }

/-- What the reader should get. For a reject there is a terminate in Jingle. -/
def SessionAction.received (protocol : SignalingProtocol) (names : String → String) (contentNames : List String) :
    SessionAction D → SessionAction D
  | .initiate message => .initiate (message.received protocol names)
  | .accept message => .accept (message.received protocol names)
  | .reject term =>
    if protocol = .gingle then .reject ⟨term.reason, ""⟩ else .terminate ⟨term.reason, ""⟩
  | .terminate term => .terminate ⟨term.reason, ""⟩
  | .transportInfo tinfos =>
    .transportInfo
      (if protocol = .gingle then gatherTransportInfos names (gingleContentNames contentNames) tinfos else tinfos)
  | .descriptionInfo contents => .descriptionInfo contents
  | .info elems => .info elems

/-! ### What can be sent -/

/-- The parser restores the description that it writes for Jingle. -/
def ContentInfo.Restored (parsers : ContentParserMap D) (c : ContentInfo D) : Prop :=
  ∀ parser elem, parsers c.type = some parser → parser.writeContent .jingle c.description = .ok elem →
    elem.name = ⟨c.type, lnDescription⟩ ∧ parser.parseContent .jingle elem = .ok c.description

/-- The contents of one description of Gingle, with the names of the reader: the parser restores what it writes,
and for audio and video what was put together of them. -/
inductive GingleContents (parsers : ContentParserMap D) (names : String → String) : List (ContentInfo D) → Prop
  | other (c : ContentInfo D) (hkept : c.rejected = false) (hname : names c.name = cnOther)
      (htype : c.type ≠ nsJingleRtp ∧ c.type ≠ nsGingleAudio ∧ c.type ≠ nsGingleVideo)
      (hrestored : ∀ parser elem, parsers c.type = some parser →
        parser.writeContent .gingle c.description = .ok elem →
        elem.name = ⟨c.type, lnDescription⟩ ∧ parser.parseContent .gingle elem = .ok c.description) :
      GingleContents parsers names [c]
  | audio (c : ContentInfo D) (hkept : c.rejected = false) (hname : names c.name = cnAudio)
      (htype : c.type = nsJingleRtp)
      (hrestored : ∀ parser elem, parsers nsJingleRtp = some parser →
        parser.writeContent .gingle c.description = .ok elem →
        elem.name = ⟨nsGingleAudio, lnDescription⟩ ∧ parser.parseContent .gingle elem = .ok c.description) :
      GingleContents parsers names [c]
  | audioVideo (audio video : ContentInfo D) (hkept : audio.rejected = false ∧ video.rejected = false)
      (hname : names audio.name = cnAudio ∧ names video.name = cnVideo)
      (htype : audio.type = nsJingleRtp ∧ video.type = nsJingleRtp)
      (hwritable : isWritable parsers .gingle video = true)
      (hrestored : ∀ parser audioElem videoElem, parsers nsJingleRtp = some parser →
        parser.writeContent .gingle audio.description = .ok audioElem →
        parser.writeContent .gingle video.description = .ok videoElem →
        videoElem.name = ⟨nsGingleVideo, lnDescription⟩ ∧
        parser.parseContent .gingle
          (copyXmlChildren (copyXmlChildren audioElem videoElem) (XmlElement.ofName qnGingleAudioContent)) =
          .ok audio.description ∧
        parser.parseContent .gingle (copyXmlChildren audioElem videoElem) = .ok video.description) :
      GingleContents parsers names [audio, video]

section Fits

variable (parsers : ContentParserMap D) (texts : TextFormat) (writers readers : CandidateTranslatorMap)
  (names : String → String)

/-- The candidates of a transport info fit the translator that the reader has for the content; in Gingle, it is
found by the names of the channels. -/
def TransportInfo.Fits (protocol : SignalingProtocol) (contentNames : List String) (tinfo : TransportInfo) :
    Prop :=
  ∀ writer, writers tinfo.contentName = some writer → ∀ c ∈ tinfo.description.candidates,
    match protocol with
    | .gingle =>
      c.Fits texts writer (readers (names tinfo.contentName)) ∧
        ∀ channelName, writer.getChannelNameFromComponent c.component = some channelName →
          gingleContentName contentNames channelName = some (names tinfo.contentName)
    | _ => c.Fits texts writer (readers tinfo.contentName)

/-- Contents that are not rejected, of different names, which the parser restores, and no group or that of all;
for Gingle, those of one description. -/
def ContentMessage.Fits (protocol : SignalingProtocol) (message : ContentMessage D) : Prop :=
  match protocol with
  | .gingle =>
    GingleContents parsers names message.contents ∧
      ∀ tinfo ∈ message.transports,
        tinfo.Fits texts writers readers names .gingle (message.contents.map fun c => names c.name)
  | _ =>
    (∀ c ∈ message.contents, c.rejected = false ∧ c.Restored parsers) ∧
      (message.contents.map (·.name)).Nodup ∧
      (message.groups = [] ∨ message.groups = [⟨GROUP_TYPE_BUNDLE, message.contents.map (·.name)⟩]) ∧
      ∀ tinfo ∈ message.transports, tinfo.Fits texts writers readers names .jingle []

/-- What can be sent over the protocol to a reader that knows the contents of these names. An update of the
contents cannot be sent over Gingle. -/
def SessionAction.Fits (protocol : SignalingProtocol) (contentNames : List String) : SessionAction D → Prop
  | .initiate message => message.Fits parsers texts writers readers names protocol
  | .accept message => message.Fits parsers texts writers readers names protocol
  | .transportInfo tinfos =>
    ∀ tinfo ∈ tinfos, tinfo.Fits texts writers readers names protocol contentNames ∧
      (protocol = .jingle → tinfo.contentName ∈ contentNames)
  | .descriptionInfo contents =>
    protocol = .jingle ∧ ∀ c ∈ contents, c.rejected = false ∧ c.Restored parsers
  | _ => True

end Fits

/-! ### Contents of Jingle -/

section Jingle

variable {parsers : ContentParserMap D} {texts : TextFormat} {writers readers : CandidateTranslatorMap}

variable (name : String)

@[simp] theorem name_writeJingleContent (childElems : List XmlElement) :
    (writeJingleContent name childElems).name = qnJingleContent := by
  simp [writeJingleContent]

@[simp] theorem elements_writeJingleContent (childElems : List XmlElement) :
    (writeJingleContent name childElems).elements = childElems := by
  simp [writeJingleContent]

@[simp] theorem requireXmlAttr_writeJingleContent (childElems : List XmlElement) :
    requireXmlAttr (writeJingleContent name childElems) qnJingleContentName = .ok name := by
  simp [requireXmlAttr, writeJingleContent, qnCreator, qnJingleContentName]

theorem requireXmlChild_of_head {parent child : XmlElement} {children : List XmlElement} {name : String}
    (hchildren : parent.elements = child :: children) (hname : child.name.localPart = name) :
    requireXmlChild parent name = .ok child := by
  rw [requireXmlChild, hchildren, List.find?_cons, hname, decide_eq_true rfl]

theorem requireXmlChild_of_second {parent child other : XmlElement} {name : String}
    (hchildren : parent.elements = [other, child]) (hother : other.name.localPart ≠ name)
    (hname : child.name.localPart = name) : requireXmlChild parent name = .ok child := by
  rw [requireXmlChild, hchildren, List.find?_cons, decide_eq_false hother, List.find?_cons, hname,
    decide_eq_true rfl]

variable {elem : XmlElement}

theorem parseContentInfo_of_written {c : ContentInfo D} (hrestored : c.Restored parsers)
    (hkept : c.rejected = false) (h : writeContentInfo parsers .jingle c = .ok elem) :
    elem.name = ⟨c.type, lnDescription⟩ ∧
      parseContentInfo parsers .jingle c.name elem.name.ns elem = .ok c := by
  rw [writeContentInfo] at h
  split at h
  · cases h
  · rename_i parser hparser
    obtain ⟨hname, hparse⟩ := hrestored parser elem hparser h
    refine ⟨hname, ?_⟩
    rw [parseContentInfo, hname, hparser]
    simp only [hparse, Except.map, ← hkept]

theorem parseJingleContent_of_written {c : ContentInfo D} {others : List XmlElement}
    (hrestored : c.Restored parsers) (hkept : c.rejected = false)
    (h : writeContentInfo parsers .jingle c = .ok elem) :
    parseJingleContent parsers (writeJingleContent c.name (elem :: others)) = .ok c := by
  obtain ⟨hname, hparse⟩ := parseContentInfo_of_written hrestored hkept h
  rw [parseJingleContent, requireXmlAttr_writeJingleContent]
  refine bind_eq_ok_iff.mpr ⟨c.name, rfl, ?_⟩
  refine bind_eq_ok_iff.mpr ⟨elem, ?_, hparse⟩
  exact requireXmlChild_of_head (elements_writeJingleContent ..) (by rw [hname])

theorem parseJinglePair_of_written {tinfo : TransportInfo} (before : List XmlElement)
    {contentNames : List String}
    (hfits : ∀ writer, writers tinfo.contentName = some writer →
      ∀ c ∈ tinfo.description.candidates, c.Fits texts writer (readers tinfo.contentName))
    (hknown : tinfo.contentName ∈ contentNames)
    (hbefore : before = [] ∨ ∃ other, before = [other] ∧ other.name.localPart ≠ lnTransport)
    (h : writeJingleTransportInfo texts writers tinfo = .ok elem) :
    parseJinglePair texts readers contentNames (writeJingleContent tinfo.contentName (before ++ [elem])) =
      .ok (tinfo.asRead texts) := by
  obtain ⟨hname, hparse⟩ := parseJingleTransportInfo_of_written hfits h
  rw [parseJinglePair, requireXmlAttr_writeJingleContent]
  refine bind_eq_ok_iff.mpr ⟨tinfo.contentName, rfl, ?_⟩
  rw [if_pos hknown]
  refine bind_eq_ok_iff.mpr ⟨elem, ?_, hparse⟩
  rcases hbefore with rfl | ⟨other, rfl, hother⟩
  · exact requireXmlChild_of_head (elements_writeJingleContent ..) hname
  · exact requireXmlChild_of_second (elements_writeJingleContent ..) hother hname

variable {contents : List (ContentInfo D)}

theorem filter_kept (hkept : ∀ c ∈ contents, c.rejected = false) :
    contents.filter (!·.rejected) = contents := by
  rw [List.filter_eq_self]
  intro c hc
  rw [hkept c hc]
  rfl

variable {tinfos : List TransportInfo}

theorem of_getTransportInfoByContentName {name : String} {tinfo : TransportInfo}
    (h : getTransportInfoByContentName tinfos name = some tinfo) : tinfo ∈ tinfos ∧ tinfo.contentName = name := by
  refine ⟨List.mem_of_find?_eq_some h, ?_⟩
  have hname := List.find?_some h
  exact (of_decide_eq_true hname).symm

variable {elems : List XmlElement}

theorem of_writeJingleContents
    (hkept : ∀ c ∈ contents, c.rejected = false)
    (h : writeJingleContents parsers texts writers contents tinfos = .ok elems) :
    List.Forall₂ (fun c pairElem => ∃ tinfo elem transElem,
      getTransportInfoByContentName tinfos c.name = some tinfo ∧
        writeContentInfo parsers .jingle c = .ok elem ∧
        writeJingleTransportInfo texts writers tinfo = .ok transElem ∧
        pairElem = writeJingleContent c.name [elem, transElem]) contents elems := by
  rw [writeJingleContents, filter_kept hkept, mapM_eq_ok_iff] at h
  refine h.imp ?_
  intro c pairElem hwrite
  split at hwrite
  · cases hwrite
  · rename_i tinfo htinfo
    obtain ⟨elem, helem, hwrite⟩ := bind_eq_ok_iff.mp hwrite
    obtain ⟨transElem, htrans, hwrite⟩ := bind_eq_ok_iff.mp hwrite
    cases hwrite
    exact ⟨tinfo, elem, transElem, htinfo, helem, htrans, rfl⟩

theorem jingleContents_of_written
    (hcontents : ∀ c ∈ contents, c.rejected = false ∧ c.Restored parsers)
    (hfits : ∀ tinfo ∈ tinfos, ∀ writer, writers tinfo.contentName = some writer →
      ∀ c ∈ tinfo.description.candidates, c.Fits texts writer (readers tinfo.contentName))
    (h : writeJingleContents parsers texts writers contents tinfos = .ok elems) :
    (∀ elem ∈ elems, elem.name = qnJingleContent) ∧
      elems.mapM (parseJingleContent parsers) = .ok contents ∧
      elems.mapM (parseJinglePair texts readers (contents.map (·.name))) =
        .ok (contents.filterMap fun c =>
          (getTransportInfoByContentName tinfos c.name).map (·.asRead texts)) := by
  have hwritten := of_writeJingleContents (fun c hc => (hcontents c hc).1) h
  refine ⟨?_, ?_, ?_⟩
  · refine forall_of_forall₂ ?_ hwritten
    rintro c hc pairElem ⟨tinfo, elem, transElem, -, -, -, rfl⟩
    exact name_writeJingleContent ..
  · have hread : elems.mapM (parseJingleContent parsers) = .ok (contents.map id) := by
      refine mapM_of_forall₂ ?_ hwritten
      rintro c hc pairElem ⟨tinfo, elem, transElem, -, helem, -, rfl⟩
      exact parseJingleContent_of_written (hcontents c hc).2 (hcontents c hc).1 helem
    rwa [List.map_id] at hread
  refine mapM_filterMap_of_forall₂ ?_ hwritten
  rintro c hc pairElem ⟨tinfo, elem, transElem, htinfo, helem, htrans, rfl⟩
  obtain ⟨hmem, hname⟩ := of_getTransportInfoByContentName htinfo
  have hdescription := (parseContentInfo_of_written (hcontents c hc).2 (hcontents c hc).1 helem).1
  refine ⟨tinfo.asRead texts, by rw [htinfo]; rfl, ?_⟩
  rw [← hname]
  refine parseJinglePair_of_written [elem] (hfits tinfo hmem) ?_ ?_ htrans
  · rw [hname]
    exact List.mem_map_of_mem hc
  · exact .inr ⟨elem, rfl, by rw [hdescription]; exact (by decide : lnDescription ≠ lnTransport)⟩

theorem jingleContentInfos_of_written
    (hcontents : ∀ c ∈ contents, c.rejected = false ∧ c.Restored parsers)
    (h : writeJingleContentInfos parsers contents = .ok elems) :
    (∀ elem ∈ elems, elem.name = qnJingleContent) ∧ elems.mapM (parseJingleContent parsers) = .ok contents := by
  rw [writeJingleContentInfos, filter_kept fun c hc => (hcontents c hc).1] at h
  constructor
  · refine forall_of_written ?_ h
    intro c hc pairElem hwrite
    obtain ⟨elem, -, hwrite⟩ := bind_eq_ok_iff.mp hwrite
    cases hwrite
    exact name_writeJingleContent ..
  have hread : elems.mapM (parseJingleContent parsers) = .ok (contents.map id) := by
    refine mapM_of_written ?_ h
    intro c hc pairElem hwrite
    obtain ⟨elem, helem, hwrite⟩ := bind_eq_ok_iff.mp hwrite
    cases hwrite
    exact parseJingleContent_of_written (hcontents c hc).2 (hcontents c hc).1 helem
  rwa [List.map_id] at hread

theorem jingleTransportInfos_of_written
    (contentNames : List String) (hknown : ∀ tinfo ∈ tinfos, tinfo.contentName ∈ contentNames)
    (hfits : ∀ tinfo ∈ tinfos, ∀ writer, writers tinfo.contentName = some writer →
      ∀ c ∈ tinfo.description.candidates, c.Fits texts writer (readers tinfo.contentName))
    (h : writeJingleTransportInfos texts writers tinfos = .ok elems) :
    (∀ elem ∈ elems, elem.name = qnJingleContent) ∧
      elems.mapM (parseJinglePair texts readers contentNames) = .ok (tinfos.map (·.asRead texts)) := by
  constructor
  · refine forall_of_written ?_ h
    intro tinfo _ pairElem hwrite
    obtain ⟨elem, -, hwrite⟩ := bind_eq_ok_iff.mp hwrite
    cases hwrite
    exact name_writeJingleContent ..
  · refine mapM_of_written ?_ h
    intro tinfo htinfo pairElem hwrite
    obtain ⟨elem, helem, hwrite⟩ := bind_eq_ok_iff.mp hwrite
    cases hwrite
    exact parseJinglePair_of_written [] (hfits tinfo htinfo) (hknown tinfo htinfo) (.inl rfl) helem

/-! ### Groups -/

theorem foldl_addContentName {names : List String} (group : ContentGroup)
    (h : (group.contentNames ++ names).Nodup) :
    names.foldl ContentGroup.addContentName group =
      { group with contentNames := group.contentNames ++ names } := by
  induction names generalizing group with
  | nil => simp
  | cons name names ih =>
    have hnew : name ∉ group.contentNames := by
      intro hmem
      exact (List.nodup_append.mp h).2.2 name hmem name (List.mem_cons_self ..) rfl
    rw [List.foldl_cons, ContentGroup.addContentName, if_neg hnew, ih]
    · rw [List.append_assoc, List.singleton_append]
    · rwa [List.append_assoc, List.singleton_append]

theorem jingleGroups_of_written {groups : List ContentGroup}
    (hdistinct : (contents.map (·.name)).Nodup)
    (hgroups : groups = [] ∨ groups = [⟨GROUP_TYPE_BUNDLE, contents.map (·.name)⟩]) :
    (∀ elem ∈ writeJingleGroupInfo contents groups, elem.name = qnJingleDraftGroup) ∧
      (writeJingleGroupInfo contents groups).mapM parseJingleGroup = .ok groups := by
  rcases hgroups with rfl | rfl
  · constructor
    · intro elem helem
      cases helem
    · rfl
  have hread : (contents.map (groupContentElement ·.name)).mapM (requireXmlAttr · qnJingleContentName) =
      (.ok (contents.map (·.name)) : Except ParseError (List String)) := by
    refine mapM_of_forall₂ (R := fun c elem => groupContentElement c.name = elem) ?_ ?_
    · rintro c - elem rfl
      simp [requireXmlAttr, groupContentElement]
    · rw [List.forall₂_map_right_iff, List.forall₂_same]
      intro c _
      rfl
  have hfilter : (contents.map (groupContentElement ·.name)).filter (·.name = qnJingleContent) =
      contents.map (groupContentElement ·.name) := by
    rw [List.filter_eq_self]
    intro elem helem
    obtain ⟨c, -, rfl⟩ := List.mem_map.mp helem
    simp [groupContentElement]
  constructor
  · intro elem helem
    rw [writeJingleGroupInfo, if_neg (List.cons_ne_nil _ _), List.mem_singleton] at helem
    rw [helem]
    simp
  rw [writeJingleGroupInfo, if_neg (List.cons_ne_nil _ _), mapM_eq_ok_iff]
  refine List.Forall₂.cons ?_ List.Forall₂.nil
  refine bind_eq_ok_iff.mpr ⟨GROUP_TYPE_BUNDLE, by simp [requireXmlAttr], ?_⟩
  refine bind_eq_ok_iff.mpr ⟨contents.map (·.name), ?_, ?_⟩
  · simpa [XmlElement.allNamed, hfilter] using hread
  · rw [foldl_addContentName ⟨GROUP_TYPE_BUNDLE, []⟩ (by simpa using hdistinct)]
    rfl

end Jingle

/-! ### Contents of Gingle -/

section Gingle

variable {parsers : ContentParserMap D} {texts : TextFormat} {writers readers : CandidateTranslatorMap}
  {names : String → String}

/-- The contents that a Gingle message is of are read of their description, whatever is behind it. -/
theorem gingleContents_of_written {contents : List (ContentInfo D)} {elems others : List XmlElement}
    {session : XmlElement} (hcontents : GingleContents parsers names contents)
    (h : writeGingleContentInfos parsers contents = .ok elems) (hsession : session.elements = elems ++ others) :
    (∀ elem ∈ elems, elem.name.localPart = lnDescription) ∧
      parseGingleContentInfos parsers session =
        .ok (contents.map fun c => { c with name := names c.name }) := by
  cases hcontents with
  | other c hkept hname htype hrestored =>
    rw [writeGingleContentInfos, writeGingleContent, if_neg (by simp [hkept])] at h
    obtain ⟨elem, hwrite, helems⟩ := bind_eq_ok_iff.mp h
    cases helems
    rw [writeContentInfo] at hwrite
    split at hwrite
    · cases hwrite
    rename_i parser hparser
    obtain ⟨helem, hparse⟩ := hrestored parser elem hparser hwrite
    have hchild : requireXmlChild session lnDescription = .ok elem :=
      requireXmlChild_of_head hsession (by rw [helem])
    refine ⟨by simp [helem], ?_⟩
    rw [parseGingleContentInfos, hchild]
    refine bind_eq_ok_iff.mpr ⟨elem, rfl, ?_⟩
    simp only [helem, if_neg htype.2.1, if_neg htype.2.2, parseContentInfo, hparser, hparse]
    simp [Except.map, hname, hkept]
  | audio c hkept hname htype hrestored =>
    rw [writeGingleContentInfos, writeGingleContent, if_neg (by simp [hkept])] at h
    obtain ⟨elem, hwrite, helems⟩ := bind_eq_ok_iff.mp h
    cases helems
    rw [writeContentInfo, htype] at hwrite
    split at hwrite
    · cases hwrite
    rename_i parser hparser
    obtain ⟨helem, hparse⟩ := hrestored parser elem hparser hwrite
    have hchild : requireXmlChild session lnDescription = .ok elem :=
      requireXmlChild_of_head hsession (by rw [helem])
    have hne : nsGingleAudio ≠ nsGingleVideo := by decide
    refine ⟨by simp [helem], ?_⟩
    rw [parseGingleContentInfos, hchild]
    refine bind_eq_ok_iff.mpr ⟨elem, rfl, ?_⟩
    simp only [helem, if_neg hne, if_true, parseContentInfo, hparser, hparse]
    simp [Except.map, hname, hkept, ← htype]
  | audioVideo audio video hkept hname htype hwritable hrestored =>
    rw [writeGingleContentInfos, if_neg (by simp [hwritable]), writeGingleMergedContent, if_pos htype,
      if_neg (by simp [hkept])] at h
    obtain ⟨audioElem, haudio, h⟩ := bind_eq_ok_iff.mp h
    obtain ⟨videoElem, hvideo, helems⟩ := bind_eq_ok_iff.mp h
    cases helems
    rw [writeContentInfo, htype.1] at haudio
    rw [writeContentInfo, htype.2] at hvideo
    split at haudio
    · cases haudio
    rename_i parser hparser
    rw [hparser] at hvideo
    obtain ⟨helem, hparseAudio, hparseVideo⟩ := hrestored parser audioElem videoElem hparser haudio hvideo
    have hmerged : (copyXmlChildren audioElem videoElem).name = ⟨nsGingleVideo, lnDescription⟩ := by
      rw [copyXmlChildren, name_addXmlChildren, helem]
    have hchild : requireXmlChild session lnDescription = .ok (copyXmlChildren audioElem videoElem) :=
      requireXmlChild_of_head hsession (by rw [hmerged])
    refine ⟨by simp [hmerged], ?_⟩
    rw [parseGingleContentInfos, hchild]
    refine bind_eq_ok_iff.mpr ⟨copyXmlChildren audioElem videoElem, rfl, ?_⟩
    simp only [hmerged, if_true, parseContentInfo, hparser, hparseAudio, hparseVideo]
    simp [Except.map, hname, hkept, htype]
    rfl

/-! ### Candidates of Gingle -/

/-- The candidates of all transport infos, in the order that they are written. -/
def allCandidates (tinfos : List TransportInfo) : List (TransportInfo × Candidate) :=
  tinfos.flatMap fun tinfo => tinfo.description.candidates.map fun c => (tinfo, c)

/-- A candidate was written with the translator of its content. -/
def GingleWritten (texts : TextFormat) (writers : CandidateTranslatorMap) (p : TransportInfo × Candidate)
    (elem : XmlElement) : Prop :=
  ∃ writer, writers p.1.contentName = some writer ∧
    writeP2pGingleCandidate texts p.2 (some writer) = .ok elem

variable {tinfos : List TransportInfo}

theorem of_writeGingleTransportInfos {elems : List XmlElement}
    (h : writeGingleTransportInfos texts writers tinfos = .ok elems) :
    List.Forall₂ (GingleWritten texts writers) (allCandidates tinfos) elems := by
  obtain ⟨lists, hlists, helems⟩ := bind_eq_ok_iff.mp h
  cases helems
  rw [mapM_eq_ok_iff] at hlists
  clear h
  induction hlists with
  | nil => exact List.Forall₂.nil
  | @cons tinfo list tinfos lists hwrite _ ih =>
    obtain ⟨writer, hwriter, hwrite⟩ := bind_eq_ok_iff.mp hwrite
    rw [mapM_eq_ok_iff] at hwrite
    refine List.rel_append ?_ ih
    rw [List.forall₂_map_left_iff]
    refine hwrite.imp ?_
    intro c elem helem
    exact ⟨writer, (of_getParserAndTranslatorToWrite hwriter).2, helem⟩

theorem gingleCandidate_of_written {contentNames : List String} {p : TransportInfo × Candidate}
    {elem : XmlElement} (hfits : p.1.Fits texts writers readers names .gingle contentNames)
    (hmem : p.2 ∈ p.1.description.candidates) (h : GingleWritten texts writers p elem) :
    elem.name = qnGingleCandidate ∧
      gingleContentName contentNames (elem.attr qnName) = some (names p.1.contentName) ∧
      parseGingleCandidate texts readers (names p.1.contentName) elem = .ok (p.2.asRead texts) := by
  obtain ⟨writer, hwriter, hwrite⟩ := h
  obtain ⟨hreader, hcontent⟩ := hfits writer hwriter p.2 hmem
  refine ⟨name_of_written hwrite, ?_, ?_⟩
  · rw [writeP2pGingleCandidate, writeCandidate, Option.bind_some] at hwrite
    split at hwrite
    · cases hwrite
    · rename_i channelName hchannel
      cases hwrite
      rw [(attr_candidateAttrs texts p.2 channelName qnGingleCandidate).1]
      exact hcontent channelName hchannel
  · refine bind_eq_ok_iff.mpr ⟨readers (names p.1.contentName), ?_, ?_⟩
    · simp [getParserAndTranslator, hasTransportParser]
    · exact parseCandidate_of_written texts p.2 _ hreader hwrite

/-- A candidate with the name of its content, as they are read. -/
def readCandidate (texts : TextFormat) (names : String → String) (p : TransportInfo × Candidate) :
    String × Candidate :=
  (names p.1.contentName, p.2.asRead texts)

theorem filter_readCandidate (tinfos : List TransportInfo) (name : String) :
    ((((allCandidates tinfos).map (readCandidate texts names)).filter (·.1 = name)).map (·.2)) =
      (gatherCandidates names tinfos name).map (·.asRead texts) := by
  induction tinfos with
  | nil => rfl
  | cons tinfo tinfos ih =>
    rw [allCandidates, List.flatMap_cons, ← allCandidates, List.map_append, List.filter_append,
      List.map_append, ih, List.map_map]
    by_cases hname : names tinfo.contentName = name
    · have hall : (tinfo.description.candidates.map
          (readCandidate texts names ∘ fun c => (tinfo, c))).filter (·.1 = name) =
          tinfo.description.candidates.map (readCandidate texts names ∘ fun c => (tinfo, c)) := by
        rw [List.filter_eq_self]
        intro q hq
        obtain ⟨c, -, rfl⟩ := List.mem_map.mp hq
        exact decide_eq_true hname
      have hgather : gatherCandidates names (tinfo :: tinfos) name =
          tinfo.description.candidates ++ gatherCandidates names tinfos name := by
        rw [gatherCandidates, List.filter_cons, decide_eq_true hname, if_pos rfl, List.flatMap_cons]
        rfl
      rw [hall, hgather, List.map_append, List.map_map]
      rfl
    · have hnone : (tinfo.description.candidates.map
          (readCandidate texts names ∘ fun c => (tinfo, c))).filter (·.1 = name) = [] := by
        rw [List.filter_eq_nil_iff]
        intro q hq
        obtain ⟨c, -, rfl⟩ := List.mem_map.mp hq
        exact fun h => hname (of_decide_eq_true h)
      have hgather : gatherCandidates names (tinfo :: tinfos) name = gatherCandidates names tinfos name := by
        rw [gatherCandidates, List.filter_cons, decide_eq_false hname, if_neg Bool.false_ne_true]
        rfl
      rw [hnone, hgather]
      rfl

theorem mem_allCandidates {p : TransportInfo × Candidate}
    (h : p ∈ allCandidates tinfos) : p.1 ∈ tinfos ∧ p.2 ∈ p.1.description.candidates := by
  obtain ⟨tinfo, htinfo, hp⟩ := List.mem_flatMap.mp h
  obtain ⟨c, hc, rfl⟩ := List.mem_map.mp hp
  exact ⟨htinfo, hc⟩

theorem gingleTransportInfos_of_written {contentNames : List String}
    {session : XmlElement} {before elems : List XmlElement} (hsession : session.elements = before ++ elems)
    (hbefore : ∀ elem ∈ before, elem.name.localPart = lnDescription)
    (hfits : ∀ tinfo ∈ tinfos, tinfo.Fits texts writers readers names .gingle contentNames)
    (h : writeGingleTransportInfos texts writers tinfos = .ok elems) :
    parseGingleTransportInfos texts readers session contentNames =
      .ok ((gatherTransportInfos names (gingleContentNames contentNames) tinfos).map (·.asRead texts)) := by
  have hwritten := of_writeGingleTransportInfos h
  have hcandidate : ∀ p ∈ allCandidates tinfos, ∀ elem, GingleWritten texts writers p elem →
      elem.name = qnGingleCandidate ∧
        gingleContentName contentNames (elem.attr qnName) = some (names p.1.contentName) ∧
        parseGingleCandidate texts readers (names p.1.contentName) elem = .ok (p.2.asRead texts) := by
    intro p hp elem helem
    obtain ⟨htinfo, hc⟩ := mem_allCandidates hp
    exact gingleCandidate_of_written (hfits p.1 htinfo) hc helem
  -- what is no candidate is left out
  have helems : candidateElements session = elems := by
    have hfirst : before.filter (·.name.localPart = lnCandidate) = [] := by
      rw [List.filter_eq_nil_iff]
      intro elem helem
      rw [hbefore elem helem]
      decide
    have hsecond : elems.filter (·.name.localPart = lnCandidate) = elems := by
      rw [List.filter_eq_self]
      refine forall_of_forall₂ ?_ hwritten
      intro p hp elem helem
      rw [(hcandidate p hp elem helem).1]
      rfl
    rw [candidateElements, hsession, List.filter_append, hfirst, hsecond, List.nil_append]
  have hinfo : ∀ name, gingleTransportInfo ((allCandidates tinfos).map (readCandidate texts names)) name =
      TransportInfo.asRead texts ⟨name, .ofCandidates NS_GINGLE_P2P (gatherCandidates names tinfos name)⟩ := by
    intro name
    rw [gingleTransportInfo, filter_readCandidate]
    rfl
  rw [parseGingleTransportInfos, helems]
  by_cases hmedia : cnAudio ∉ contentNames ∧ cnVideo ∉ contentNames
  · have hother : ∀ p ∈ allCandidates tinfos, names p.1.contentName = cnOther := by
      intro p hp
      obtain ⟨elem, helem⟩ := exists_of_forall₂ hwritten p hp
      have hname := (hcandidate p hp elem helem).2.1
      rw [gingleContentName, if_pos hmedia] at hname
      exact (Option.some.inj hname).symm
    have hread : (parseGingleCandidates texts readers session cnOther) =
        .ok ((allCandidates tinfos).map (·.2.asRead texts)) := by
      rw [parseGingleCandidates, helems]
      refine mapM_of_forall₂ ?_ hwritten
      intro p hp elem helem
      rw [← hother p hp]
      exact (hcandidate p hp elem helem).2.2
    have hall : ((allCandidates tinfos).map (readCandidate texts names)).filter (·.1 = cnOther) =
        (allCandidates tinfos).map (readCandidate texts names) := by
      rw [List.filter_eq_self]
      intro q hq
      obtain ⟨p, hp, rfl⟩ := List.mem_map.mp hq
      exact decide_eq_true (hother p hp)
    have hnames : gingleContentNames contentNames = [cnOther] := if_pos hmedia
    rw [if_pos (by simp [hmedia]), hread, hnames, gatherTransportInfos, List.map_singleton, List.map_singleton,
      ← hinfo, gingleTransportInfo, hall, List.map_map]
    rfl
  · have hread : parseGingleMediaCandidates texts readers (cnAudio ∈ contentNames) (cnVideo ∈ contentNames)
        elems = .ok ((allCandidates tinfos).map (readCandidate texts names)) := by
      refine mapM_of_forall₂ ?_ hwritten
      intro p hp elem helem
      obtain ⟨-, hname, hparse⟩ := hcandidate p hp elem helem
      rw [gingleContentName, if_neg hmedia] at hname
      rw [hname]
      simp only [hparse]
      rfl
    rw [if_neg (by simpa [not_and_or] using hmedia), hread, gingleContentNames, if_neg hmedia,
      gatherTransportInfos, List.map_append, List.map_append]
    refine bind_eq_ok_iff.mpr ⟨_, rfl, ?_⟩
    by_cases haudio : cnAudio ∈ contentNames <;> by_cases hvideo : cnVideo ∈ contentNames <;>
      simp [haudio, hvideo, hinfo] <;> rfl

end Gingle

/-! ### Messages -/

section Messages

variable {parsers : ContentParserMap D} {texts : TextFormat} {writers readers : CandidateTranslatorMap}
  {names : String → String}

theorem attr_writeJingleAction (type : ActionType) (sid initiator : String) (elems : List XmlElement) :
    let jingle := writeJingleAction type sid initiator elems
    jingle.name = qnJingle ∧ jingle.elements = elems ∧ jingle.attr qnAction = type.toJingleString ∧
      jingle.attr qnSid = sid ∧ (type = .sessionInitiate → jingle.attr qnInitiator = initiator) := by
  by_cases htype : type = .sessionInitiate <;>
    simp [writeJingleAction, htype, qnAction, qnSid, qnInitiator, qnXmlns]

theorem attr_writeGingleAction (type : ActionType) (sid initiator : String) (elems : List XmlElement) :
    let session := writeGingleAction type sid initiator elems
    session.name = qnGingleSession ∧ session.elements = elems ∧ session.attr qnType = type.toGingleString ∧
      session.attr qnId = sid ∧ session.attr qnInitiator = initiator := by
  simp [writeGingleAction, qnType, qnId, qnInitiator, qnXmlns]

/-- A Jingle message is read as one, with its type, unless that has no text. -/
theorem parseSessionMessage_jingle {type : ActionType} (sid initiator recipient : String)
    (elems : List XmlElement) (htype : toActionType type.toJingleString ≠ .unknown) :
    ∃ msg, parseSessionMessage
        (writeSessionMessage .jingle type sid initiator recipient elems (XmlElement.ofName qnIq)) = .ok msg ∧
      msg.protocol = .jingle ∧ msg.type = toActionType type.toJingleString ∧ msg.sid = sid ∧
      (type = .sessionInitiate → msg.initiator = initiator) ∧ msg.actionElem.elements = elems := by
  obtain ⟨hname, helems, haction, hsid, hinitiator⟩ := attr_writeJingleAction type sid initiator elems
  have hne : qnJingle ≠ qnGingleSession := by decide
  have hparse : parseSessionMessage
      (writeSessionMessage .jingle type sid initiator recipient elems (XmlElement.ofName qnIq)) =
      parseJingleSessionMessage
        (writeSessionMessage .jingle type sid initiator recipient elems (XmlElement.ofName qnIq))
        (writeJingleAction type sid initiator elems) := by
    simp only [parseSessionMessage, writeSessionMessage, XmlElement.firstNamed, XmlElement.elements_addElement,
      XmlElement.elements_setAttr, XmlElement.elements_ofName, List.nil_append, List.find?_cons, hname,
      decide_true, decide_eq_false hne, List.find?_nil]
  simp only [hparse, parseJingleSessionMessage, haction, if_neg htype]
  exact ⟨_, rfl, rfl, rfl, hsid, hinitiator, helems⟩

theorem parseSessionMessage_gingle {type : ActionType} (sid initiator recipient : String)
    (elems : List XmlElement) (htype : toActionType type.toGingleString ≠ .unknown) :
    ∃ msg, parseSessionMessage
        (writeSessionMessage .gingle type sid initiator recipient elems (XmlElement.ofName qnIq)) = .ok msg ∧
      msg.protocol = .gingle ∧ msg.type = toActionType type.toGingleString ∧ msg.sid = sid ∧
      msg.initiator = initiator ∧ msg.actionElem.elements = elems := by
  obtain ⟨hname, helems, haction, hsid, hinitiator⟩ := attr_writeGingleAction type sid initiator elems
  have hne : qnGingleSession ≠ qnJingle := by decide
  have hparse : parseSessionMessage
      (writeSessionMessage .gingle type sid initiator recipient elems (XmlElement.ofName qnIq)) =
      parseGingleSessionMessage
        (writeSessionMessage .gingle type sid initiator recipient elems (XmlElement.ofName qnIq))
        (writeGingleAction type sid initiator elems) := by
    simp only [parseSessionMessage, writeSessionMessage, XmlElement.firstNamed, XmlElement.elements_addElement,
      XmlElement.elements_setAttr, XmlElement.elements_ofName, List.nil_append, List.find?_cons, hname,
      decide_true, decide_eq_false hne, List.find?_nil]
  simp only [hparse, parseGingleSessionMessage, haction, if_neg htype]
  exact ⟨_, rfl, rfl, rfl, hsid, hinitiator, helems⟩

theorem map_carried_asRead (tinfos : List TransportInfo) :
    (tinfos.map (·.asRead texts)).map TransportInfo.carried = tinfos.map TransportInfo.carried := by
  rw [List.map_map]
  exact List.map_congr_left fun tinfo _ => TransportInfo.carried_asRead texts tinfo

variable {actionElem : XmlElement} {elems : List XmlElement} {protocol : SignalingProtocol}

theorem parseContentMessage_of_written (hprotocol : protocol ≠ .hybrid)
    {message : ContentMessage D}
    (hfits : message.Fits parsers texts writers readers names protocol)
    (h : writeContentMessage parsers texts writers protocol message = .ok elems)
    (helems : actionElem.elements = elems) :
    ∃ read, parseContentMessage parsers texts readers protocol actionElem true = .ok read ∧
      read.carried = (message.received protocol names).carried := by
  cases protocol with
  | hybrid => exact absurd rfl hprotocol
  | gingle =>
    obtain ⟨hcontents, htinfos⟩ := hfits
    obtain ⟨contentElems, hwrite, h⟩ := bind_eq_ok_iff.mp h
    obtain ⟨candidateElems, hcandidates, h⟩ := bind_eq_ok_iff.mp h
    cases h
    obtain ⟨hdescription, hparse⟩ := gingleContents_of_written hcontents hwrite helems
    have hnames : (message.contents.map fun c => { c with name := names c.name }).map (·.name) =
        message.contents.map fun c => names c.name := by
      rw [List.map_map]
      rfl
    have htransports := gingleTransportInfos_of_written helems hdescription htinfos hcandidates
    refine ⟨⟨message.contents.map fun c => { c with name := names c.name }, (gatherTransportInfos names
      (gingleContentNames (message.contents.map fun c => names c.name)) message.transports).map (·.asRead texts),
      []⟩, ?_, ?_⟩
    · refine bind_eq_ok_iff.mpr ⟨_, hparse, ?_⟩
      rw [hnames]
      exact bind_eq_ok_iff.mpr ⟨_, htransports, rfl⟩
    · simp only [ContentMessage.carried, ContentMessage.received, map_carried_asRead]
  | jingle =>
    obtain ⟨hcontents, hdistinct, hgroups, htinfos⟩ := hfits
    obtain ⟨contentElems, hwrite, h⟩ := bind_eq_ok_iff.mp h
    cases h
    obtain ⟨hcontentName, hparse, htransports⟩ := jingleContents_of_written hcontents htinfos hwrite
    obtain ⟨hgroupName, hparseGroups⟩ := jingleGroups_of_written hdistinct hgroups
    have hne : qnJingleContent ≠ qnJingleDraftGroup := by decide
    have hcontent : actionElem.allNamed qnJingleContent = contentElems := by
      rw [XmlElement.allNamed, helems, List.filter_append, List.filter_eq_self.mpr, List.filter_eq_nil_iff.mpr,
        List.append_nil]
      · intro elem helem
        simp [hgroupName elem helem, hne.symm]
      · intro elem helem
        simp [hcontentName elem helem]
    have hgroup : actionElem.allNamed qnJingleDraftGroup =
        writeJingleGroupInfo message.contents message.groups := by
      rw [XmlElement.allNamed, helems, List.filter_append, List.filter_eq_nil_iff.mpr, List.filter_eq_self.mpr,
        List.nil_append]
      · intro elem helem
        simp [hgroupName elem helem]
      · intro elem helem
        simp [hcontentName elem helem, hne]
    refine ⟨⟨message.contents, message.contents.filterMap fun c =>
      (getTransportInfoByContentName message.transports c.name).map (·.asRead texts), message.groups⟩, ?_, ?_⟩
    · refine bind_eq_ok_iff.mpr ⟨message.contents, by rw [parseJingleContentInfos, hcontent, hparse], ?_⟩
      refine bind_eq_ok_iff.mpr ⟨message.groups, by rw [parseJingleGroupInfos, hgroup, hparseGroups], ?_⟩
      refine bind_eq_ok_iff.mpr ⟨_, ?_, rfl⟩
      rw [parseJingleTransportInfos, hcontent, htransports]
    · simp only [ContentMessage.carried, ContentMessage.received, ← List.map_filterMap, map_carried_asRead]

theorem parseDescriptionInfo_of_written {contents : List (ContentInfo D)}
    (hcontents : ∀ c ∈ contents, c.rejected = false ∧ c.Restored parsers)
    (h : writeDescriptionInfo parsers .jingle contents = .ok elems) (helems : actionElem.elements = elems) :
    parseContentMessage parsers texts readers .jingle actionElem false = .ok ⟨contents, [], []⟩ := by
  obtain ⟨hname, hparse⟩ := jingleContentInfos_of_written hcontents h
  have hne : qnJingleContent ≠ qnJingleDraftGroup := by decide
  have hcontent : actionElem.allNamed qnJingleContent = elems := by
    rw [XmlElement.allNamed, helems, List.filter_eq_self]
    intro elem helem
    simp [hname elem helem]
  have hgroup : actionElem.allNamed qnJingleDraftGroup = [] := by
    rw [XmlElement.allNamed, helems, List.filter_eq_nil_iff]
    intro elem helem
    simp [hname elem helem, hne]
  refine bind_eq_ok_iff.mpr ⟨contents, by rw [parseJingleContentInfos, hcontent, hparse], ?_⟩
  exact bind_eq_ok_iff.mpr ⟨[], by rw [parseJingleGroupInfos, hgroup]; rfl, rfl⟩

theorem parseSessionTerminate_of_written (hprotocol : protocol ≠ .hybrid)
    (term : SessionTerminate)
    (helems : actionElem.elements = writeSessionTerminate protocol term) :
    parseSessionTerminate protocol actionElem = ⟨term.reason, ""⟩ := by
  cases protocol with
  | hybrid => exact absurd rfl hprotocol
  | gingle =>
    rw [parseSessionTerminate, XmlElement.firstElement, helems]
    rfl
  | jingle =>
    simp only [parseSessionTerminate, XmlElement.firstNamed, helems, writeSessionTerminate]
    by_cases hreason : term.reason = ""
    · rw [if_pos hreason, hreason]
      rfl
    · rw [if_neg hreason]
      simp [XmlElement.firstElement]

theorem parseSessionAction_of_written (hprotocol : protocol ≠ .hybrid)
    {contentNames : List String} {action : SessionAction D}
    (hfits : action.Fits parsers texts writers readers names protocol contentNames)
    (h : writeSessionAction parsers texts writers protocol action = .ok elems)
    (helems : actionElem.elements = elems) :
    ∃ read, parseSessionAction parsers texts readers protocol contentNames
        (action.received protocol names contentNames).type actionElem = .ok read ∧
      read.carried = (action.received protocol names contentNames).carried := by
  cases action with
  | initiate message =>
    obtain ⟨read, hparse, hread⟩ := parseContentMessage_of_written hprotocol hfits h helems
    exact ⟨.initiate read, bind_eq_ok_iff.mpr ⟨read, hparse, rfl⟩, congrArg SessionAction.initiate hread⟩
  | accept message =>
    obtain ⟨read, hparse, hread⟩ := parseContentMessage_of_written hprotocol hfits h helems
    exact ⟨.accept read, bind_eq_ok_iff.mpr ⟨read, hparse, rfl⟩, congrArg SessionAction.accept hread⟩
  | reject term =>
    cases h
    have hread := parseSessionTerminate_of_written hprotocol term helems
    cases protocol with
    | hybrid => exact absurd rfl hprotocol
    | gingle => exact ⟨.reject ⟨term.reason, ""⟩, congrArg (Except.ok ∘ SessionAction.reject) hread, rfl⟩
    | jingle => exact ⟨.terminate ⟨term.reason, ""⟩, congrArg (Except.ok ∘ SessionAction.terminate) hread, rfl⟩
  | terminate term =>
    cases h
    have hread := parseSessionTerminate_of_written hprotocol term helems
    exact ⟨.terminate ⟨term.reason, ""⟩, congrArg (Except.ok ∘ SessionAction.terminate) hread, rfl⟩
  | transportInfo tinfos =>
    cases protocol with
    | hybrid => exact absurd rfl hprotocol
    | gingle =>
      have hread : parseGingleTransportInfos texts readers actionElem contentNames =
          .ok ((gatherTransportInfos names (gingleContentNames contentNames) tinfos).map (·.asRead texts)) := by
        refine gingleTransportInfos_of_written (List.nil_append elems ▸ helems) ?_
          (fun tinfo htinfo => (hfits tinfo htinfo).1) h
        intro elem helem
        cases helem
      refine ⟨.transportInfo _, bind_eq_ok_iff.mpr ⟨_, hread, rfl⟩, ?_⟩
      simp only [SessionAction.carried, SessionAction.received, if_true, map_carried_asRead]
    | jingle =>
      obtain ⟨hname, hparse⟩ := jingleTransportInfos_of_written contentNames
        (fun tinfo htinfo => (hfits tinfo htinfo).2 rfl) (fun tinfo htinfo => (hfits tinfo htinfo).1) h
      have hread : parseJingleTransportInfos texts readers actionElem contentNames =
          .ok (tinfos.map (·.asRead texts)) := by
        rw [parseJingleTransportInfos, XmlElement.allNamed, helems, List.filter_eq_self.mpr]
        · exact hparse
        · intro elem helem
          simp [hname elem helem]
      refine ⟨.transportInfo _, bind_eq_ok_iff.mpr ⟨_, hread, rfl⟩, ?_⟩
      have hne : ¬SignalingProtocol.jingle = .gingle := by decide
      simp only [SessionAction.carried, SessionAction.received, if_neg hne, map_carried_asRead]
  | descriptionInfo contents =>
    obtain ⟨rfl, hcontents⟩ := hfits
    have hparse : parseContentMessage parsers texts readers .jingle actionElem false = .ok ⟨contents, [], []⟩ :=
      parseDescriptionInfo_of_written hcontents h helems
    exact ⟨.descriptionInfo contents, bind_eq_ok_iff.mpr ⟨_, hparse, rfl⟩, rfl⟩
  | info infoElems =>
    cases h
    exact ⟨.info _, congrArg (Except.ok ∘ SessionAction.info) helems, rfl⟩

/-- **What a session sends is read by the other**: its type, a terminate in the place of a reject in Jingle, the
id of the session and, for an initiate, the initiator; and what should be received. -/
theorem SessionAction.read_of_written {protocol : SignalingProtocol} (hprotocol : protocol ≠ .hybrid)
    {contentNames : List String} {action : SessionAction D} {sid initiator recipient : String}
    {stanza : XmlElement} (hfits : action.Fits parsers texts writers readers names protocol contentNames)
    (h : writeActionMessage parsers texts writers protocol sid initiator recipient action = .ok stanza) :
    ∃ msg read, parseSessionMessage stanza = .ok msg ∧ msg.protocol = protocol ∧
      msg.type =
        (if protocol = .jingle ∧ action.type = .sessionReject then .sessionTerminate else action.type) ∧
      msg.sid = sid ∧ (action.type = .sessionInitiate → msg.initiator = initiator) ∧
      parseSessionAction parsers texts readers msg.protocol contentNames msg.type msg.actionElem = .ok read ∧
      read.carried = (action.received protocol names contentNames).carried := by
  obtain ⟨elems, hwrite, h⟩ := bind_eq_ok_iff.mp h
  cases h
  have htype : (if protocol = .jingle ∧ action.type = .sessionReject then .sessionTerminate else action.type) =
      (action.received protocol names contentNames).type := by
    cases protocol <;> cases action <;> first | exact absurd rfl hprotocol | rfl
  cases protocol with
  | hybrid => exact absurd rfl hprotocol
  | gingle =>
    have hknown : toActionType action.type.toGingleString = action.type ∧ action.type ≠ .unknown := by
      cases action with
      | descriptionInfo contents => exact absurd hfits.1 (by decide)
      | _ => exact ⟨rfl, nofun⟩
    obtain ⟨msg, hparse, hmsg, hmsgType, hsid, hinitiator, helems⟩ := parseSessionMessage_gingle sid initiator
      recipient elems (hknown.1 ▸ hknown.2)
    obtain ⟨read, hbody, hread⟩ := parseSessionAction_of_written hprotocol hfits hwrite helems
    have hmsgType' : msg.type = (action.received .gingle names contentNames).type := by
      rw [hmsgType, hknown.1, ← htype]
      rfl
    refine ⟨msg, read, hparse, hmsg, hmsgType'.trans htype.symm, hsid, fun _ => hinitiator, ?_, hread⟩
    rw [hmsg, hmsgType', hbody]
  | jingle =>
    have hknown : toActionType action.type.toJingleString = (action.received .jingle names contentNames).type ∧
        (action.received .jingle names contentNames).type ≠ .unknown := by
      cases action <;> exact ⟨rfl, nofun⟩
    obtain ⟨msg, hparse, hmsg, hmsgType, hsid, hinitiator, helems⟩ := parseSessionMessage_jingle sid initiator
      recipient elems (hknown.1 ▸ hknown.2)
    obtain ⟨read, hbody, hread⟩ := parseSessionAction_of_written hprotocol hfits hwrite helems
    have hmsgType' : msg.type = (action.received .jingle names contentNames).type := hmsgType.trans hknown.1
    refine ⟨msg, read, hparse, hmsg, hmsgType'.trans htype.symm, hsid, hinitiator, ?_, hread⟩
    rw [hmsg, hmsgType', hbody]

end Messages

/-! ### Messages of a tunnel -/

/-- A description that is nothing but its element. -/
def plainParsers : ContentParserMap Unit := fun type =>
  some
    { parseContent := fun _ _ => .ok ()
      isWritable := fun _ _ => true
      writeContent := fun _ _ => .ok (XmlElement.ofName ⟨type, lnDescription⟩) }

/-- Texts of the local host, and of the preference of local candidates. -/
def localTexts : TextFormat where
  inetNtop ip := if ip = .ipv4 0x7F000001 then "127.0.0.1" else ""
  inetPton4 text := if text = "127.0.0.1" then some 0x7F000001 else none
  inetPton6 _ := none
  preferenceToString _ := "1"
  priorityFromString text := if text = "1" then some 0x7F000000 else none

/-- One channel, for the first component. -/
def tcpTranslators : CandidateTranslatorMap := fun _ =>
  some
    { getChannelNameFromComponent := fun component => if component = 1 then some "tcp" else none
      getComponentFromChannelName := fun name => if name = "tcp" then some 1 else none }

/-- A candidate of the local host. -/
def localCandidate : Candidate where
  id := "1"
  component := 1
  protocol := "udp"
  address := ⟨.ipv4 0x7F000001, 5222⟩
  priority := 0x7F000000
  username := "abcdefgh/0123+45"
  password := "secret"
  type := "local"
  networkName := "lo"
  generation := 3
  foundation := "1"
  relatedAddress := ⟨.unspec, 0⟩

/-- The contents of these names, each with a candidate, in groups. -/
def plainMessage (names : List String) (groups : List ContentGroup) : ContentMessage Unit where
  contents := names.map fun name => ⟨name, "http://www.google.com/talk/tunnel", false, ()⟩
  transports := names.map fun name => ⟨name, .ofCandidates NS_GINGLE_P2P [localCandidate]⟩
  groups := groups

/-- What is read of an action, if it can be written. -/
def reread (protocol : SignalingProtocol) (action : SessionAction Unit) : Option (SessionAction Unit) := do
  let stanza ← (writeActionMessage plainParsers localTexts tcpTranslators protocol "1" "a" "b" action).toOption
  let msg ← (parseSessionMessage stanza).toOption
  (parseSessionAction plainParsers localTexts tcpTranslators msg.protocol [] msg.type msg.actionElem).toOption

/-- Two contents in a group, with a candidate each. -/
theorem SessionAction.read_of_written_bundle :
    let action := SessionAction.initiate (plainMessage ["a", "b"] [⟨GROUP_TYPE_BUNDLE, ["a", "b"]⟩])
    ∃ stanza, writeActionMessage plainParsers localTexts tcpTranslators .jingle "1" "a" "b" action = .ok stanza ∧
      ∃ msg read, parseSessionMessage stanza = .ok msg ∧ msg.protocol = .jingle ∧
        msg.type = .sessionInitiate ∧ msg.sid = "1" ∧
        (action.type = .sessionInitiate → msg.initiator = "a") ∧
        parseSessionAction plainParsers localTexts tcpTranslators msg.protocol [] msg.type msg.actionElem =
          .ok read ∧
        read.carried = (action.received .jingle id []).carried := by
  intro action
  have hcandidate : ∀ tinfo : TransportInfo, tinfo.description.candidates = [localCandidate] →
      tinfo.Fits localTexts tcpTranslators tcpTranslators id .jingle [] := by
    intro tinfo htinfo writer hwriter c hc
    cases hwriter
    rw [htinfo, List.mem_singleton] at hc
    rw [hc]
    refine ⟨by decide, by decide, rfl, rfl, ?_⟩
    intro channelName hchannel
    cases hchannel
    rfl
  have hfits : action.Fits plainParsers localTexts tcpTranslators tcpTranslators id .jingle [] := by
    refine ⟨?_, by decide, .inr rfl, ?_⟩
    · intro c hc
      obtain ⟨name, -, rfl⟩ := List.mem_map.mp hc
      refine ⟨rfl, ?_⟩
      intro parser elem hparser hwrite
      cases hparser
      cases hwrite
      exact ⟨rfl, rfl⟩
    · intro tinfo htinfo
      obtain ⟨name, -, rfl⟩ := List.mem_map.mp htinfo
      exact hcandidate _ rfl
  refine ⟨_, rfl, ?_⟩
  exact SessionAction.read_of_written (by decide) hfits rfl

/-- A group of some contents comes back as one of all. A content without media comes back under another name in
Gingle. -/
theorem not_read_as_written :
    (∃ read, reread .jingle (.initiate (plainMessage ["a", "b"] [⟨GROUP_TYPE_BUNDLE, ["a"]⟩])) =
        some (.initiate read) ∧ read.groups ≠ [⟨GROUP_TYPE_BUNDLE, ["a"]⟩]) ∧
      ∃ read, reread .gingle (.initiate (plainMessage ["tunnel"] [])) = some (.initiate read) ∧
        read.contents ≠ (plainMessage ["tunnel"] []).contents :=
  ⟨⟨_, rfl, by decide⟩, ⟨_, rfl, by decide⟩⟩

end Synciga.P2p
