import Soapy.Lib.OrdMap
import Soapy.Remote.HTTPHeader
import Soapy.Remote.Url

/-! # Handling an SSDP datagram

What the handler thread does with a datagram: it answers a search, and registers the services of
responses and notifications. The thread has no handler for exceptions.
-/

namespace Soapy.Remote

open Lib
open Soapy.Multi (isspace)

/-- `SOAPY_REMOTE_TARGET`. -/
def soapyRemoteTarget : Bytes := ascii "urn:schemas-pothosware-com:service:soapyRemote:1"

/-- `NTS_ALIVE`. -/
def ntsAlive : Bytes := ascii "ssdp:alive"

/-- `NTS_BYEBYE`. -/
def ntsByebye : Bytes := ascii "ssdp:byebye"

/-- `CACHE_DURATION_SECONDS`. -/
def cacheDurationSeconds : Int32 := 120

/-- The socket of a network interface. -/
structure SSDPEndpointData where
  ipVer : Int32
  groupURL : Bytes
  ethName : Bytes

/-- What the host says of itself, and the time on its clocks. -/
structure Host where
  hostName : Bytes
  userAgent : Bytes
  dateGMT : Bytes
  now : Int

inductive SSDPLog where
  | removed (url uuid ethName : Bytes) (ipVer : Int32)
  | discovered (url uuid ethName : Bytes) (ipVer : Int32)

/-- URL and expiry, in nanoseconds, of each active USN. -/
abbrev DiscoveredURLs := OrdMap Bytes (Bytes × Int)

structure SSDPEndpoint where
  serviceIpVer : Int32
  uuid : Bytes
  service : Bytes
  usnToURL : OrdMap Int DiscoveredURLs
  sent : List (Bytes × SoapyHTTPHeader)
  logged : List SSDPLog

def uuidFromUSN (usn : Bytes) : Except StdException Bytes :=
  match find (ascii "uuid:") usn with
  | none => .ok usn
  | some posUUID =>
    let posUUID := posUUID + 5
    match findFrom (ascii ":") posUUID usn with
    | none => .ok usn
    | some posColon => substr usn posUUID (posColon - posUUID)

def getCacheDuration (header : SoapyHTTPHeader) : Except StdException Int32 := do
  let cacheControl ← header.getField (ascii "CACHE-CONTROL")
  if cacheControl = [] then .ok cacheDurationSeconds
  else
    match find (ascii "max-age") cacheControl, find (ascii "=") cacheControl with
    | some maxAgePos, some equalsPos =>
      if equalsPos < maxAgePos then .ok cacheDurationSeconds
      else
        let valuePos := equalsPos + 1
        let valuePos ← skipSpace valuePos (cacheControl.drop valuePos)
        let maxAge ← substr cacheControl valuePos cacheControl.length
        match stoul maxAge with
        | .ok seconds => .ok seconds.toUInt32.toInt32
        | .error _ => .ok cacheDurationSeconds
    | _, _ => .ok cacheDurationSeconds

namespace SSDPEndpoint

/-- `usnToURL[ipVer]`, where `operator[]` makes an entry. -/
def urls (ep : SSDPEndpoint) (ipVer : Int32) : DiscoveredURLs :=
  (ep.usnToURL.find? ipVer.toInt).getD .empty

def sendHeader (ep : SSDPEndpoint) (header : SoapyHTTPHeader) (addr : Bytes) : SSDPEndpoint :=
  { ep with sent := ep.sent ++ [(addr, header)] }

def usn (ep : SSDPEndpoint) : Bytes := ascii "uuid:" ++ ep.uuid ++ ascii "::" ++ soapyRemoteTarget

def sendNotifyHeader (host : Host) (ep : SSDPEndpoint) (data : SSDPEndpointData) (nts : Bytes) :
    SSDPEndpoint :=
  if ep.serviceIpVer &&& data.ipVer = 0 then ep
  else
    let hostURL := { SoapyURL.parse data.groupURL with scheme := [] }
    let header := (SoapyHTTPHeader.ofLine (ascii "NOTIFY * HTTP/1.1")).addField (ascii "HOST")
      hostURL.toString
    let header :=
      if nts = ntsAlive then
        (header.addField (ascii "CACHE-CONTROL") (ascii "max-age=120")).addField
          (ascii "LOCATION") (SoapyURL.mk (ascii "tcp") host.hostName ep.service).toString
      else header
    let header := header.addField (ascii "SERVER") host.userAgent
    let header := header.addField (ascii "NT") soapyRemoteTarget
    let header := header.addField (ascii "USN") ep.usn
    let header := header.addField (ascii "NTS") nts
    ep.sendHeader header.finalize data.groupURL

def response (host : Host) (ep : SSDPEndpoint) : SoapyHTTPHeader :=
  let header := SoapyHTTPHeader.ofLine (ascii "HTTP/1.1 200 OK")
  let header := header.addField (ascii "CACHE-CONTROL") (ascii "max-age=120")
  let header := header.addField (ascii "DATE") host.dateGMT
  let header := header.addField (ascii "EXT") []
  let header := header.addField (ascii "LOCATION")
    (SoapyURL.mk (ascii "tcp") host.hostName ep.service).toString
  let header := header.addField (ascii "SERVER") host.userAgent
  let header := header.addField (ascii "ST") soapyRemoteTarget
  let header := header.addField (ascii "USN") ep.usn
  header.finalize

variable (host : Host) (ep : SSDPEndpoint) (data : SSDPEndpointData) (recvAddr : Bytes)
  (header : SoapyHTTPHeader)

def handleSearchRequest : Except StdException SSDPEndpoint :=
  if ep.serviceIpVer &&& data.ipVer = 0 then .ok ep
  else do
    let man ← header.getField (ascii "MAN")
    if man ≠ ascii "\"ssdp:discover\"" then .ok ep
    else
      let st ← header.getField (ascii "ST")
      let stForUs := st = ascii "ssdp:all" ∨ st = soapyRemoteTarget ∨ st = ascii "uuid:" ++ ep.uuid
      if ¬ stForUs then .ok ep
      else .ok ((ep.sendHeader (ep.response host) recvAddr).sendNotifyHeader host data ntsAlive)

/-- `handleRegisterService` for a service that stops. -/
def removeService (usn : Bytes) : Except StdException SSDPEndpoint := do
  let urls := ep.urls data.ipVer
  let uuid ← uuidFromUSN usn
  let url := ((urls.find? usn).map Prod.fst).getD []
  .ok { ep with
    usnToURL := ep.usnToURL.insert data.ipVer.toInt (urls.erase usn)
    logged := ep.logged ++ [.removed url uuid data.ethName data.ipVer] }

def handleRegisterService : Except StdException SSDPEndpoint := do
  let usn ← header.getField (ascii "USN")
  if usn = [] then .ok ep
  else
    let nts ← header.getField (ascii "NTS")
    if nts = ntsByebye then ep.removeService data usn
    else
      let location ← header.getField (ascii "LOCATION")
      if location = [] then .ok ep
      else
        let serverURL : SoapyURL :=
          ⟨ascii "tcp", (SoapyURL.parse recvAddr).node, (SoapyURL.parse location).service⟩
        let uuid ← uuidFromUSN usn
        let duration ← getCacheDuration header
        let expires := host.now + duration.toInt * 1000000000
        .ok { ep with
          usnToURL := ep.usnToURL.insert data.ipVer.toInt
            ((ep.urls data.ipVer).insert usn (serverURL.toString, expires))
          logged := ep.logged ++ [.discovered serverURL.toString uuid data.ethName data.ipVer] }

/-- `handleSearchResponse` and `handleNotifyRequest`, with the field that names the target. -/
def handleTarget (key : Bytes) : Except StdException SSDPEndpoint := do
  let target ← header.getField key
  if target ≠ soapyRemoteTarget then .ok ep
  else ep.handleRegisterService host data recvAddr header

def handleSearchResponse : Except StdException SSDPEndpoint :=
  ep.handleTarget host data recvAddr header (ascii "ST")

def handleNotifyRequest : Except StdException SSDPEndpoint :=
  ep.handleTarget host data recvAddr header (ascii "NT")

/-- The part of `handlerLoop` for one datagram. -/
def handleDatagram (text : Bytes) : Except StdException SSDPEndpoint := do
  let header : SoapyHTTPHeader := ⟨text⟩
  let line0 ← header.getLine0
  let ep ← if line0 = ascii "M-SEARCH * HTTP/1.1" then
      ep.handleSearchRequest host data recvAddr header
    else .ok ep
  let line0 ← header.getLine0
  let ep ← if line0 = ascii "HTTP/1.1 200 OK" then
      ep.handleSearchResponse host data recvAddr header
    else .ok ep
  let line0 ← header.getLine0
  if line0 = ascii "NOTIFY * HTTP/1.1" then ep.handleNotifyRequest host data recvAddr header
  else .ok ep

end SSDPEndpoint

/-- There is nothing but white space behind the equals sign of a maximum age. -/
def AgeBlank (cacheControl : Bytes) : Prop :=
  ∃ front back, FoundAt (ascii "=") cacheControl front back ∧ ascii "max-age" <:+: front ∧
    back.all isspace = true

structure Registers (text : Bytes) : Prop where
  usn : ¬ Blank (ascii "USN") text
  nts : ∀ v, Field (ascii "USN") text v → ¬ Blank (ascii "NTS") text
  location : ∀ v, Field (ascii "USN") text v → ¬ Field (ascii "NTS") text ntsByebye →
    ¬ Blank (ascii "LOCATION") text
  age : ∀ v url, Field (ascii "USN") text v → ¬ Field (ascii "NTS") text ntsByebye →
    Field (ascii "LOCATION") text url → ¬ Blank (ascii "CACHE-CONTROL") text ∧
      ∀ age, Field (ascii "CACHE-CONTROL") text age → ¬ AgeBlank age

structure Readable (ep : SSDPEndpoint) (data : SSDPEndpointData) (text : Bytes) : Prop where
  search : Line0 (ascii "M-SEARCH * HTTP/1.1") text → ep.serviceIpVer &&& data.ipVer ≠ 0 →
    ¬ Blank (ascii "MAN") text ∧
      (Field (ascii "MAN") text (ascii "\"ssdp:discover\"") → ¬ Blank (ascii "ST") text)
  response : Line0 (ascii "HTTP/1.1 200 OK") text → ¬ Blank (ascii "ST") text ∧
    (Field (ascii "ST") text soapyRemoteTarget → Registers text)
  notify : Line0 (ascii "NOTIFY * HTTP/1.1") text → ¬ Blank (ascii "NT") text ∧
    (Field (ascii "NT") text soapyRemoteTarget → Registers text)

section Ages

variable {header : SoapyHTTPHeader} {text : Bytes}

theorem uuidFromUSN_ok (usn : Bytes) : ∃ uuid, uuidFromUSN usn = .ok uuid := by
  rw [uuidFromUSN]
  cases search : find (ascii "uuid:") usn with
  | none => exact ⟨usn, rfl⟩
  | some pos =>
    obtain ⟨front, back, found, rfl⟩ := find_eq_some_iff.mp search
    have inside : front.length + 5 ≤ usn.length := by
      rw [found.whole, List.length_append, List.length_append]
      change front.length + 5 ≤ front.length + 5 + back.length
      omega
    dsimp only
    split
    · exact ⟨_, rfl⟩
    · exact ⟨_, substr_ok inside⟩

theorem ageBlank_iff {v front back before behind : Bytes}
    (equals : FoundAt (ascii "=") v front back) (age : FoundAt (ascii "max-age") v before behind)
    (order : before.length ≤ front.length) : AgeBlank v ↔ back.all isspace = true := by
  constructor
  · rintro ⟨front', back', equals', -, blank⟩
    obtain ⟨-, rfl⟩ := equals.unique equals'
    exact blank
  · intro blank
    have same : before ++ ascii "max-age" ++ behind = front ++ 61 :: back := by
      rw [← age.whole, equals.whole, List.append_assoc]
      rfl
    exact ⟨front, back, equals, infix_of_apart same (by decide) order, blank⟩

theorem not_ageBlank_of_order {v front back before behind : Bytes}
    (equals : FoundAt (ascii "=") v front back) (age : FoundAt (ascii "max-age") v before behind)
    (order : front.length < before.length) : ¬ AgeBlank v := by
  rintro ⟨front', back', equals', ⟨first, last, inside⟩, -⟩
  obtain ⟨rfl, -⟩ := equals.unique equals'
  have early := age.first first (last ++ ascii "=" ++ back) (by
    rw [equals.whole, ← inside]
    simp)
  have short : first.length ≤ front.length := by
    rw [← inside, List.length_append, List.length_append]
    omega
  omega

theorem getCacheDuration_ok_iff : (∃ d, getCacheDuration header = .ok d) ↔
    ¬ Blank (ascii "CACHE-CONTROL") header.storage ∧
      ∀ age, Field (ascii "CACHE-CONTROL") header.storage age → ¬ AgeBlank age := by
  rcases getField_cases header (ascii "CACHE-CONTROL") with
    ⟨blank, read⟩ | ⟨clear, none, read⟩ | ⟨v, field, read⟩
  · simp [getCacheDuration, read, blank, bind, Except.bind]
  · simp [getCacheDuration, read, clear, none, bind, Except.bind]
  · have only : (∀ age, Field (ascii "CACHE-CONTROL") header.storage age → ¬ AgeBlank age) ↔
        ¬ AgeBlank v :=
      ⟨fun all => all v field, fun clear age field' => field.unique field' ▸ clear⟩
    rw [only, and_iff_right field.not_blank]
    simp only [getCacheDuration, read, bind, Except.bind, field.ne_nil, if_false]
    cases searchAge : find (ascii "max-age") v with
    | none =>
      have missing := find_eq_none_iff.mp searchAge
      refine iff_of_true ⟨_, rfl⟩ ?_
      rintro ⟨front, back, equals, inside, -⟩
      exact missing (inside.trans ⟨[], ascii "=" ++ back, by
        rw [equals.whole, List.nil_append, List.append_assoc]⟩)
    | some maxAgePos =>
      obtain ⟨before, behind, age, rfl⟩ := find_eq_some_iff.mp searchAge
      cases searchEquals : find (ascii "=") v with
      | none =>
        have missing := find_eq_none_iff.mp searchEquals
        refine iff_of_true ⟨_, rfl⟩ ?_
        rintro ⟨front, back, equals, -⟩
        exact missing ⟨front, back, equals.whole.symm⟩
      | some equalsPos =>
        obtain ⟨front, back, equals, rfl⟩ := find_eq_some_iff.mp searchEquals
        by_cases order : front.length < before.length
        · simp only [order, if_true]
          exact iff_of_true ⟨_, rfl⟩ (not_ageBlank_of_order equals age order)
        · have back_eq : v.drop (front.length + 1) = back := by
            rw [equals.whole]
            exact List.drop_left' List.length_append
          simp only [order, if_false, back_eq, skipSpace_eq,
            ageBlank_iff equals age (Nat.not_lt.mp order)]
          by_cases blank : back.all isspace = true
          · simp [blank]
          · have short := (List.takeWhile_prefix (l := back) isspace).length_le
            have inside : front.length + 1 + (back.takeWhile isspace).length ≤ v.length := by
              rw [equals.whole, List.length_append, List.length_append]
              change _ ≤ front.length + 1 + back.length
              omega
            simp only [if_neg blank, substr_ok inside]
            split
            · exact iff_of_true ⟨_, rfl⟩ blank
            · exact iff_of_true ⟨_, rfl⟩ blank

end Ages

section Handlers

variable (host : Host) (ep : SSDPEndpoint) (data : SSDPEndpointData) (recvAddr : Bytes)
  (header : SoapyHTTPHeader)

namespace SSDPEndpoint

theorem removeService_ok (usn : Bytes) : ∃ ep', ep.removeService data usn = .ok ep' := by
  obtain ⟨uuid, read⟩ := uuidFromUSN_ok usn
  exact ⟨_, by rw [removeService, read]; rfl⟩

theorem handleRegisterService_ok_iff :
    (∃ ep', ep.handleRegisterService host data recvAddr header = .ok ep') ↔
      Registers header.storage := by
  rw [handleRegisterService]
  by_cases usnBlank : Blank (ascii "USN") header.storage
  · rw [getField_of_blank usnBlank]
    exact iff_of_false nofun fun reads => reads.usn usnBlank
  obtain ⟨usn, read, none_usn, -⟩ := getField_of_not_blank usnBlank
  simp only [read, bind, Except.bind]
  by_cases noUsn : usn = []
  · rw [if_pos noUsn]
    have none := none_usn.mp noUsn
    exact iff_of_true ⟨_, rfl⟩ ⟨usnBlank, fun v field => absurd field (none v),
      fun v field => absurd field (none v), fun v _ field => absurd field (none v)⟩
  rw [if_neg noUsn]
  obtain ⟨v, field⟩ := not_forall_not.mp (mt none_usn.mpr noUsn)
  by_cases ntsBlank : Blank (ascii "NTS") header.storage
  · rw [getField_of_blank ntsBlank]
    exact iff_of_false nofun fun reads => reads.nts v field ntsBlank
  obtain ⟨nts, readNts, -, is_nts⟩ := getField_of_not_blank ntsBlank
  simp only [readNts]
  by_cases byebye : nts = ntsByebye
  · have stops := (is_nts ntsByebye (by decide)).mp byebye
    rw [if_pos byebye]
    exact iff_of_true (ep.removeService_ok data usn) ⟨usnBlank, fun _ _ => ntsBlank,
      fun _ _ alive => absurd stops alive, fun _ _ _ alive => absurd stops alive⟩
  have alive := mt (is_nts ntsByebye (by decide)).mpr byebye
  rw [if_neg byebye]
  by_cases locationBlank : Blank (ascii "LOCATION") header.storage
  · rw [getField_of_blank locationBlank]
    exact iff_of_false nofun fun reads => reads.location v field alive locationBlank
  obtain ⟨location, readLocation, none_location, -⟩ := getField_of_not_blank locationBlank
  simp only [readLocation]
  by_cases noLocation : location = []
  · rw [if_pos noLocation]
    have none := none_location.mp noLocation
    exact iff_of_true ⟨_, rfl⟩ ⟨usnBlank, fun _ _ => ntsBlank, fun _ _ _ => locationBlank,
      fun _ url _ _ field => absurd field (none url)⟩
  rw [if_neg noLocation]
  obtain ⟨url, located⟩ := not_forall_not.mp (mt none_location.mpr noLocation)
  obtain ⟨uuid, readUuid⟩ := uuidFromUSN_ok usn
  simp only [readUuid]
  have age := @getCacheDuration_ok_iff header
  cases duration : getCacheDuration header with
  | error e =>
    rw [duration] at age
    refine iff_of_false nofun fun reads => ?_
    obtain ⟨d, same⟩ := age.mpr (reads.age v url field alive located)
    cases same
  | ok d =>
    have aged := age.mp ⟨d, duration⟩
    exact iff_of_true ⟨_, rfl⟩ ⟨usnBlank, fun _ _ => ntsBlank, fun _ _ _ => locationBlank,
      fun _ _ _ _ _ => aged⟩

theorem handleTarget_ok_iff (key : Bytes) :
    (∃ ep', ep.handleTarget host data recvAddr header key = .ok ep') ↔
      ¬ Blank key header.storage ∧
        (Field key header.storage soapyRemoteTarget → Registers header.storage) := by
  rw [handleTarget]
  by_cases blank : Blank key header.storage
  · rw [getField_of_blank blank]
    exact iff_of_false nofun fun reads => reads.1 blank
  obtain ⟨target, read, -, is_target⟩ := getField_of_not_blank blank
  have ours := is_target soapyRemoteTarget (by decide)
  simp only [read, bind, Except.bind]
  rw [and_iff_right blank, ← ours]
  by_cases other : target = soapyRemoteTarget
  · rw [if_neg (not_not.mpr other), handleRegisterService_ok_iff]
    exact ⟨fun reads _ => reads, fun reads => reads other⟩
  · rw [if_pos other]
    exact iff_of_true ⟨_, rfl⟩ fun same => absurd same other

theorem handleSearchRequest_ok_iff :
    (∃ ep', ep.handleSearchRequest host data recvAddr header = .ok ep') ↔
      (ep.serviceIpVer &&& data.ipVer ≠ 0 → ¬ Blank (ascii "MAN") header.storage ∧
        (Field (ascii "MAN") header.storage (ascii "\"ssdp:discover\"") →
          ¬ Blank (ascii "ST") header.storage)) := by
  rw [handleSearchRequest]
  by_cases idle : ep.serviceIpVer &&& data.ipVer = 0
  · rw [if_pos idle]
    exact iff_of_true ⟨_, rfl⟩ fun serves => absurd idle serves
  rw [if_neg idle]
  by_cases blank : Blank (ascii "MAN") header.storage
  · rw [getField_of_blank blank]
    exact iff_of_false nofun fun reads => (reads idle).1 blank
  obtain ⟨man, read, -, is_man⟩ := getField_of_not_blank blank
  have discover := is_man (ascii "\"ssdp:discover\"") (by decide)
  simp only [read, bind, Except.bind]
  by_cases other : man = ascii "\"ssdp:discover\""
  · rw [if_neg (not_not.mpr other)]
    by_cases stBlank : Blank (ascii "ST") header.storage
    · rw [getField_of_blank stBlank]
      exact iff_of_false nofun fun reads => (reads idle).2 (discover.mp other) stBlank
    obtain ⟨st, readSt, -⟩ := getField_of_not_blank stBlank
    simp only [readSt]
    refine iff_of_true ?_ fun _ => ⟨blank, fun _ => stBlank⟩
    split
    · exact ⟨_, rfl⟩
    · exact ⟨_, rfl⟩
  · rw [if_pos other]
    exact iff_of_true ⟨_, rfl⟩ fun _ => ⟨blank, fun same => absurd (discover.mpr same) other⟩

end SSDPEndpoint

end Handlers

/-- The thread survives a datagram if and only if no field that it comes to read is followed by
white space alone. -/
theorem datagram_handled_iff (host : Host) (ep : SSDPEndpoint) (data : SSDPEndpointData)
    (recvAddr text : Bytes) :
    (∃ ep', ep.handleDatagram host data recvAddr text = .ok ep') ↔ Readable ep data text := by
  obtain ⟨line, read, is_line⟩ := getLine0_ok ⟨text⟩
  have search := is_line (ascii "M-SEARCH * HTTP/1.1") (by decide) (by decide)
  have response := is_line (ascii "HTTP/1.1 200 OK") (by decide) (by decide)
  have notify := is_line (ascii "NOTIFY * HTTP/1.1") (by decide) (by decide)
  simp only [SSDPEndpoint.handleDatagram, read, bind, Except.bind]
  by_cases first : line = ascii "M-SEARCH * HTTP/1.1"
  · have notResponse : line ≠ ascii "HTTP/1.1 200 OK" := by
      rw [first]
      decide
    have notNotify : line ≠ ascii "NOTIFY * HTTP/1.1" := by
      rw [first]
      decide
    have handled := ep.handleSearchRequest_ok_iff host data recvAddr ⟨text⟩
    rw [if_pos first]
    simp only [if_neg notResponse, if_neg notNotify]
    constructor
    · intro ok
      refine ⟨fun _ => handled.mp ?_, fun at_ => absurd (response.mpr at_) notResponse,
        fun at_ => absurd (notify.mpr at_) notNotify⟩
      obtain ⟨ep', ok⟩ := ok
      cases done : ep.handleSearchRequest host data recvAddr ⟨text⟩ with
      | error e =>
        rw [done] at ok
        cases ok
      | ok ep'' => exact ⟨ep'', rfl⟩
    · intro reads
      obtain ⟨ep', done⟩ := handled.mpr (reads.search (search.mp first))
      exact ⟨ep', by rw [done]⟩
  rw [if_neg first]
  by_cases second : line = ascii "HTTP/1.1 200 OK"
  · have notNotify : line ≠ ascii "NOTIFY * HTTP/1.1" := by
      rw [second]
      decide
    have handled := ep.handleTarget_ok_iff host data recvAddr ⟨text⟩ (ascii "ST")
    simp only [if_pos second, if_neg notNotify]
    constructor
    · intro ok
      refine ⟨fun at_ => absurd (search.mpr at_) first, fun _ => handled.mp ?_,
        fun at_ => absurd (notify.mpr at_) notNotify⟩
      obtain ⟨ep', ok⟩ := ok
      cases done : ep.handleTarget host data recvAddr ⟨text⟩ (ascii "ST") with
      | error e =>
        rw [SSDPEndpoint.handleSearchResponse, done] at ok
        cases ok
      | ok ep'' => exact ⟨ep'', rfl⟩
    · intro reads
      obtain ⟨ep', done⟩ := handled.mpr (reads.response (response.mp second))
      exact ⟨ep', by rw [SSDPEndpoint.handleSearchResponse, done]⟩
  simp only [if_neg second]
  by_cases third : line = ascii "NOTIFY * HTTP/1.1"
  · have handled := ep.handleTarget_ok_iff host data recvAddr ⟨text⟩ (ascii "NT")
    rw [if_pos third]
    constructor
    · intro ok
      exact ⟨fun at_ => absurd (search.mpr at_) first, fun at_ => absurd (response.mpr at_) second,
        fun _ => handled.mp ok⟩
    · intro reads
      exact handled.mpr (reads.notify (notify.mp third))
  · rw [if_neg third]
    exact iff_of_true ⟨_, rfl⟩ ⟨fun at_ => absurd (search.mpr at_) first,
      fun at_ => absurd (response.mpr at_) second, fun at_ => absurd (notify.mpr at_) third⟩

/-- A response that ends behind the name of its first field. -/
theorem short_response_throws : ¬ ∀ (host : Host) (ep : SSDPEndpoint) (data : SSDPEndpointData)
    (recvAddr text : Bytes), text.length ≤ 1500 →
    ∃ ep', ep.handleDatagram host data recvAddr text = .ok ep' := by
  intro all
  obtain ⟨ep', ok⟩ := all ⟨[], [], [], 0⟩ ⟨-1, [], [], .empty, [], []⟩ ⟨4, [], []⟩ []
    (ascii "HTTP/1.1 200 OK" ++ crlf ++ ascii "ST:") (by decide)
  have thrown : SSDPEndpoint.handleDatagram ⟨[], [], [], 0⟩ ⟨-1, [], [], .empty, [], []⟩
      ⟨4, [], []⟩ [] (ascii "HTTP/1.1 200 OK" ++ crlf ++ ascii "ST:") = .error .out_of_range := rfl
  rw [thrown] at ok
  cases ok

end Soapy.Remote
