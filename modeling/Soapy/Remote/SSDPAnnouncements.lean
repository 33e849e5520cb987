import Soapy.Remote.SSDPHandler

/-! # Periodic announcements

The handler loop searches for services and announces its own again and again. The interfaces keep
the time of the last search and of the last notification, which four functions write. The clock
is read once for each time that is stored or compared.
-/

namespace Soapy.Remote

open Lib

/-- `TRIGGER_TIMEOUT_SECONDS`, in nanoseconds. -/
def triggerTimeout : Int := 60000000000

inductive MessageKind where
  | search
  | notify
deriving DecidableEq

/-- A multicast message on an interface, and whether the periodic section sent it. -/
structure Message where
  handler : Nat
  kind : MessageKind
  periodic : Bool
  time : Int

/-- The storage of an interface, with its two times. -/
structure SSDPInterface where
  data : SSDPEndpointData
  lastTimeSearch : Int
  lastTimeNotify : Int

namespace SSDPInterface

def last (h : SSDPInterface) : MessageKind → Int
  | .search => h.lastTimeSearch
  | .notify => h.lastTimeNotify

def stamp (h : SSDPInterface) (time : Int) : MessageKind → SSDPInterface
  | .search => { h with lastTimeSearch := time }
  | .notify => { h with lastTimeNotify := time }

end SSDPInterface

/-- The endpoint with its interfaces, how often it has read the clock, and every multicast message
    that it has sent. -/
structure Announcer where
  ep : SSDPEndpoint
  periodicSearchEnabled : Bool
  periodicNotifyEnabled : Bool
  handlers : List SSDPInterface
  reads : Nat
  messages : List Message

def SSDPEndpoint.searchHeader (host : Host) (data : SSDPEndpointData) : SoapyHTTPHeader :=
  let hostURL := { SoapyURL.parse data.groupURL with scheme := [] }
  let header := SoapyHTTPHeader.ofLine (ascii "M-SEARCH * HTTP/1.1")
  let header := header.addField (ascii "HOST") hostURL.toString
  let header := header.addField (ascii "MAN") (ascii "\"ssdp:discover\"")
  let header := header.addField (ascii "MX") (ascii "2")
  let header := header.addField (ascii "ST") soapyRemoteTarget
  let header := header.addField (ascii "USER-AGENT") host.userAgent
  header.finalize

/-- Remove old cache entries. -/
def SSDPEndpoint.expire (ep : SSDPEndpoint) (timeNow : Int) : SSDPEndpoint :=
  { ep with
    usnToURL := ep.usnToURL.mapValues (fun urls =>
      urls.eraseAll (urls.keysWhere (fun entry => entry.2 ≤ timeNow))) }

/-- A datagram that `handleSearchRequest` answers. -/
def SSDPEndpoint.answers (ep : SSDPEndpoint) (data : SSDPEndpointData) (text : Bytes) : Bool :=
  let header : SoapyHTTPHeader := ⟨text⟩
  ep.serviceIpVer &&& data.ipVer ≠ 0 &&
    match header.getLine0, header.getField (ascii "MAN"), header.getField (ascii "ST") with
    | .ok line0, .ok man, .ok st =>
      line0 = ascii "M-SEARCH * HTTP/1.1" && man = ascii "\"ssdp:discover\"" &&
        (st = ascii "ssdp:all" || st = soapyRemoteTarget || st = ascii "uuid:" ++ ep.uuid)
    | _, _, _ => false

namespace Announcer

/-- The endpoint as it is made, with a handler for each interface. -/
def init (datas : List SSDPEndpointData) : Announcer where
  ep := ⟨0, [], [], .empty, [], []⟩
  periodicSearchEnabled := false
  periodicNotifyEnabled := false
  handlers := datas.map (fun data => ⟨data, 0, 0⟩)
  reads := 0
  messages := []

variable (clock : Nat → Int) (host : Host)

def sent (kind : MessageKind) (periodic : Bool) (s : Announcer) (i : Nat) (h : SSDPInterface)
    (ep : SSDPEndpoint) : Announcer :=
  { s with
    ep := ep
    handlers := s.handlers.set i (h.stamp (clock s.reads) kind)
    reads := s.reads + 1
    messages := s.messages ++ [⟨i, kind, periodic, clock s.reads⟩] }

def sendSearchHeader (periodic : Bool) (s : Announcer) (i : Nat) : Announcer :=
  match s.handlers[i]? with
  | some h =>
    s.sent clock .search periodic i h
      (s.ep.sendHeader (SSDPEndpoint.searchHeader host h.data) h.data.groupURL)
  | none => s

def sendNotifyHeader (periodic : Bool) (s : Announcer) (i : Nat) : Announcer :=
  match s.handlers[i]? with
  | some h =>
    if s.ep.serviceIpVer &&& h.data.ipVer = 0 then s
    else s.sent clock .notify periodic i h (s.ep.sendNotifyHeader host h.data ntsAlive)
  | none => s

def registerService (uuid service : Bytes) (ipVer : Int32) (s : Announcer) : Announcer :=
  let s := { s with
    ep := { s.ep with serviceIpVer := ipVer, uuid := uuid, service := service }
    periodicNotifyEnabled := true }
  (List.range s.handlers.length).foldl (sendNotifyHeader clock host false) s

/-- What `getServerURLs` does besides reading the cache. -/
def getServerURLs (s : Announcer) : Announcer :=
  if s.periodicSearchEnabled then s
  else
    (List.range s.handlers.length).foldl (sendSearchHeader clock host false)
      { s with periodicSearchEnabled := true }

/-- The turn of an interface in the receiving part, with the sender and the text of a datagram when
    there is one. -/
def receive (datagrams : Nat → Option (Bytes × Bytes)) (s : Announcer) (i : Nat) :
    Except StdException Announcer :=
  match s.handlers[i]?, datagrams i with
  | some h, some (recvAddr, text) => do
    let host := { host with now := clock s.reads }
    let ep ← s.ep.handleDatagram host h.data recvAddr text
    if s.ep.answers h.data text then .ok (s.sent clock .notify false i h ep)
    else .ok { s with ep := ep, reads := s.reads + 1 }
  | _, _ => .ok s

/-- The turn of an interface in the periodic section. -/
def trigger (timeNow : Int) (s : Announcer) (i : Nat) : Announcer :=
  let triggerExpired := timeNow + triggerTimeout
  let s :=
    if s.periodicSearchEnabled && s.handlers[i]?.any (fun h => h.lastTimeSearch > triggerExpired)
    then s.sendSearchHeader clock host true i else s
  if s.periodicNotifyEnabled && s.handlers[i]?.any (fun h => h.lastTimeNotify > triggerExpired)
  then s.sendNotifyHeader clock host true i else s

def pass (datagrams : Nat → Option (Bytes × Bytes)) (s : Announcer) :
    Except StdException (Int × Announcer) := do
  let s ← (List.range s.handlers.length).foldlM (receive clock host datagrams) s
  let timeNow := clock s.reads
  let s := { s with ep := s.ep.expire timeNow, reads := s.reads + 1 }
  .ok (timeNow, (List.range s.handlers.length).foldl (trigger clock host timeNow) s)

end Announcer

/-- What holds the mutex of the endpoint. -/
inductive SSDPAction where
  | registerService (uuid service : Bytes) (ipVer : Int32)
  | getServerURLs
  | pass (datagrams : Nat → Option (Bytes × Bytes))

/-- The passes of a run, each with its time and what it leaves behind. A pass that throws ends the
    process. -/
def passes (clock : Nat → Int) (host : Host) : Announcer → List SSDPAction → List (Int × Announcer)
  | _, [] => []
  | s, .registerService uuid service ipVer :: rest =>
    passes clock host (s.registerService clock host uuid service ipVer) rest
  | s, .getServerURLs :: rest => passes clock host (s.getServerURLs clock host) rest
  | s, .pass datagrams :: rest =>
    match s.pass clock host datagrams with
    | .ok (timeNow, s') => (timeNow, s') :: passes clock host s' rest
    | .error _ => []

namespace Announcer

def Served (s : Announcer) (h : SSDPInterface) : Prop := s.ep.serviceIpVer &&& h.data.ipVer ≠ 0

structure Announced (t : Int) (s : Announcer) : Prop where
  search : s.periodicSearchEnabled = true → ∀ h ∈ s.handlers, t - triggerTimeout < h.lastTimeSearch
  notify : s.periodicNotifyEnabled = true → ∀ h ∈ s.handlers, s.Served h →
    t - triggerTimeout < h.lastTimeNotify

/-- The rest of the endpoint has sent such a message later than a minute before. -/
def Recent (t : Int) (s : Announcer) (i : Nat) (kind : MessageKind) : Prop :=
  ∃ m ∈ s.messages, m.handler = i ∧ m.kind = kind ∧ m.periodic = false ∧
    t - triggerTimeout < m.time

structure Busy (t : Int) (s : Announcer) : Prop where
  search : s.periodicSearchEnabled = true → ∀ i < s.handlers.length, s.Recent t i .search
  notify : s.periodicNotifyEnabled = true → ∀ i h, s.handlers[i]? = some h → s.Served h →
    s.Recent t i .notify

end Announcer

theorem ok_of_bind {α β : Type} {x : Except StdException α} {f : α → Except StdException β} {b : β}
    (done : x >>= f = .ok b) : ∃ a, x = .ok a ∧ f a = .ok b := by
  cases x with
  | error e => cases done
  | ok a => exact ⟨a, rfl, done⟩

namespace SSDPEndpoint

variable {host : Host} {ep ep' : SSDPEndpoint} {data : SSDPEndpointData} {recvAddr : Bytes}
  {header : SoapyHTTPHeader}

def Quiet (ep ep' : SSDPEndpoint) : Prop :=
  ep'.sent = ep.sent ∧ ep'.serviceIpVer = ep.serviceIpVer

theorem quiet_registerService
    (done : ep.handleRegisterService host data recvAddr header = .ok ep') : ep.Quiet ep' := by
  rw [handleRegisterService] at done
  obtain ⟨usn, _, done⟩ := ok_of_bind done
  split at done
  · cases done
    exact ⟨rfl, rfl⟩
  obtain ⟨nts, _, done⟩ := ok_of_bind done
  split at done
  · rw [removeService] at done
    obtain ⟨uuid, _, done⟩ := ok_of_bind done
    cases done
    exact ⟨rfl, rfl⟩
  obtain ⟨location, _, done⟩ := ok_of_bind done
  split at done
  · cases done
    exact ⟨rfl, rfl⟩
  obtain ⟨uuid, _, done⟩ := ok_of_bind done
  obtain ⟨duration, _, done⟩ := ok_of_bind done
  cases done
  exact ⟨rfl, rfl⟩

theorem quiet_target {key : Bytes}
    (done : ep.handleTarget host data recvAddr header key = .ok ep') : ep.Quiet ep' := by
  rw [handleTarget] at done
  obtain ⟨target, _, done⟩ := ok_of_bind done
  split at done
  · cases done
    exact ⟨rfl, rfl⟩
  · exact quiet_registerService done

/-- An answer is a response to the sender and a notification to the group. -/
structure Replied (host : Host) (data : SSDPEndpointData) (recvAddr : Bytes)
    (ep ep' : SSDPEndpoint) : Prop where
  sent : ∃ header, ep'.sent = ep.sent ++ [(recvAddr, ep.response host), (data.groupURL, header)]
  same : ep'.serviceIpVer = ep.serviceIpVer

theorem handleSearchRequest_cases
    (done : ep.handleSearchRequest host data recvAddr header = .ok ep')
    (line : header.getLine0 = .ok (ascii "M-SEARCH * HTTP/1.1")) :
    ep.answers data header.storage = true ∧ Replied host data recvAddr ep ep' ∨
      ep.answers data header.storage = false ∧ ep.Quiet ep' := by
  rw [handleSearchRequest] at done
  split at done
  · rename_i idle
    cases done
    exact .inr ⟨by simp [answers, idle], rfl, rfl⟩
  rename_i serves
  obtain ⟨man, readMan, done⟩ := ok_of_bind done
  split at done
  · rename_i other
    cases done
    refine .inr ⟨?_, rfl, rfl⟩
    cases readSt : header.getField (ascii "ST") with
    | error e => simp [answers, line, readMan, readSt]
    | ok st => simp [answers, line, readMan, readSt, other]
  rename_i discover
  obtain ⟨st, readSt, done⟩ := ok_of_bind done
  dsimp only at done
  split at done
  · rename_i other
    cases done
    exact .inr ⟨by simpa [answers, line, readMan, readSt, not_not.mp discover, serves,
      and_assoc] using other,
      rfl, rfl⟩
  · rename_i forUs
    cases done
    refine .inl ⟨?_, ?_, ?_⟩
    · simpa [answers, line, readMan, readSt, not_not.mp discover, serves, or_assoc]
        using not_not.mp forUs
    · rw [sendNotifyHeader, sendHeader, if_neg serves, sendHeader]
      exact ⟨_, by rw [List.append_assoc]; rfl⟩
    · rw [sendNotifyHeader, sendHeader, if_neg serves, sendHeader]

theorem handleDatagram_cases {text : Bytes}
    (done : ep.handleDatagram host data recvAddr text = .ok ep') :
    ep.answers data text = true ∧ Replied host data recvAddr ep ep' ∨
      ep.answers data text = false ∧ ep.Quiet ep' := by
  rw [handleDatagram] at done
  obtain ⟨line0, line, done⟩ := ok_of_bind done
  dsimp only at done
  simp only [line] at done
  by_cases request : line0 = ascii "M-SEARCH * HTTP/1.1"
  · subst request
    rw [if_pos rfl] at done
    obtain ⟨searched, search, done⟩ := ok_of_bind done
    cases done
    exact handleSearchRequest_cases search line
  rw [if_neg request] at done
  obtain ⟨_, same, done⟩ := ok_of_bind done
  cases same
  obtain ⟨_, same, done⟩ := ok_of_bind done
  cases same
  have unanswered : ep.answers data text = false := by
    unfold answers
    simp only [line]
    split <;> simp_all
  refine .inr ⟨unanswered, ?_⟩
  by_cases response : line0 = ascii "HTTP/1.1 200 OK"
  · subst response
    rw [if_pos rfl] at done
    obtain ⟨responded, respond, done⟩ := ok_of_bind done
    cases done
    exact quiet_target respond
  · simp only [if_neg response] at done
    change (if _ then _ else _) = _ at done
    split at done
    · exact quiet_target done
    · cases done
      exact ⟨rfl, rfl⟩

end SSDPEndpoint

namespace Announcer

def enabled (s : Announcer) : MessageKind → Bool
  | .search => s.periodicSearchEnabled
  | .notify => s.periodicNotifyEnabled

def Due (s : Announcer) (i : Nat) : MessageKind → Prop
  | .search => ∃ h, s.handlers[i]? = some h
  | .notify => ∃ h, s.handlers[i]? = some h ∧ s.Served h

def Has (s : Announcer) (i : Nat) (kind : MessageKind) : Prop :=
  ∃ m ∈ s.messages, m.handler = i ∧ m.kind = kind

/-- The times of an interface are those of its last messages, and none is from the future. -/
structure Logged (clock : Nat → Int) (s : Announcer) : Prop where
  past : ∀ m ∈ s.messages, ∀ n, s.reads ≤ n → m.time ≤ clock n
  aperiodic : ∀ m ∈ s.messages, m.periodic = false
  last : ∀ i h, s.handlers[i]? = some h → ∀ m ∈ s.messages, m.handler = i →
    m.time ≤ h.last m.kind ∧
      ∃ m' ∈ s.messages, m'.handler = i ∧ m'.kind = m.kind ∧ m'.time = h.last m.kind

/-- What sending a message leaves alone. -/
structure Keeps (s s' : Announcer) : Prop where
  messages : ∀ m ∈ s.messages, m ∈ s'.messages
  datas : s'.handlers.map SSDPInterface.data = s.handlers.map SSDPInterface.data
  service : s'.ep.serviceIpVer = s.ep.serviceIpVer
  enabled : s'.enabled = s.enabled

/-- Outside the periodic section, messages are sent at the time of the clock. -/
structure Sends (clock : Nat → Int) (s s' : Announcer) : Prop where
  keeps : s.Keeps s'
  logged : s.Logged clock → s'.Logged clock

variable {clock : Nat → Int} {host : Host} {s s' s'' : Announcer} {i : Nat} {h : SSDPInterface}
  {kind : MessageKind}

theorem Keeps.refl (s : Announcer) : s.Keeps s := ⟨fun _ member => member, rfl, rfl, rfl⟩

theorem Keeps.trans (first : s.Keeps s') (second : s'.Keeps s'') : s.Keeps s'' where
  messages m member := second.messages m (first.messages m member)
  datas := second.datas.trans first.datas
  service := second.service.trans first.service
  enabled := second.enabled.trans first.enabled

theorem Keeps.has (keeps : s.Keeps s') (has : s.Has i kind) : s'.Has i kind := by
  obtain ⟨m, member, rest⟩ := has
  exact ⟨m, keeps.messages m member, rest⟩

theorem due_of_same (datas : s'.handlers.map SSDPInterface.data = s.handlers.map SSDPInterface.data)
    (service : s'.ep.serviceIpVer = s.ep.serviceIpVer) (due : s.Due i kind) : s'.Due i kind := by
  have there : ∀ h, s.handlers[i]? = some h →
      ∃ h', s'.handlers[i]? = some h' ∧ h'.data = h.data := by
    intro h found
    have same : s'.handlers[i]?.map SSDPInterface.data = s.handlers[i]?.map SSDPInterface.data := by
      rw [← List.getElem?_map, ← List.getElem?_map, datas]
    rwa [found, Option.map_some, Option.map_eq_some_iff] at same
  cases kind with
  | search =>
    obtain ⟨h, found⟩ := due
    obtain ⟨h', found', _⟩ := there h found
    exact ⟨h', found'⟩
  | notify =>
    obtain ⟨h, found, served⟩ := due
    obtain ⟨h', found', same⟩ := there h found
    refine ⟨h', found', ?_⟩
    rw [Served, same, service]
    exact served

theorem Keeps.due_iff (keeps : s.Keeps s') : s'.Due i kind ↔ s.Due i kind :=
  ⟨due_of_same keeps.datas.symm keeps.service.symm, due_of_same keeps.datas keeps.service⟩

theorem Sends.refl (clock : Nat → Int) (s : Announcer) : Sends clock s s := ⟨.refl s, id⟩

theorem Sends.trans (first : Sends clock s s') (second : Sends clock s' s'') :
    Sends clock s s'' :=
  ⟨first.keeps.trans second.keeps, fun logged => second.logged (first.logged logged)⟩

theorem last_stamp (h : SSDPInterface) (time : Int) (kind kind' : MessageKind) :
    (h.stamp time kind).last kind' = if kind' = kind then time else h.last kind' := by
  cases kind with
  | search => cases kind' <;> rfl
  | notify => cases kind' <;> rfl

theorem stamp_data (h : SSDPInterface) (time : Int) (kind : MessageKind) :
    (h.stamp time kind).data = h.data := by
  cases kind <;> rfl

variable {ep : SSDPEndpoint}

theorem sent_keeps (periodic : Bool) (found : s.handlers[i]? = some h)
    (service : ep.serviceIpVer = s.ep.serviceIpVer) :
    s.Keeps (s.sent clock kind periodic i h ep) where
  messages m member := List.mem_append_left _ member
  datas := by
    have inside := (List.getElem?_eq_some_iff.mp found).1
    have same := (List.getElem?_eq_some_iff.mp found).2
    rw [sent, List.map_set, stamp_data]
    apply List.ext_getElem?
    intro j
    rw [List.getElem?_set, List.length_map]
    split
    · rename_i here
      subst here
      rw [List.getElem?_map, found]
      rfl
    · rfl
  service := service
  enabled := rfl

theorem sent_logged (mono : Monotone clock)
    (found : s.handlers[i]? = some h) (logged : s.Logged clock) :
    (s.sent clock kind false i h ep).Logged clock := by
  have inside := (List.getElem?_eq_some_iff.mp found).1
  constructor
  · intro m member n later
    have after : s.reads ≤ n := Nat.le_of_succ_le later
    rcases List.mem_append.mp member with member | member
    · exact logged.past m member n after
    · rw [List.mem_singleton.mp member]
      exact mono after
  · intro m member
    rcases List.mem_append.mp member with member | member
    · exact logged.aperiodic m member
    · rw [List.mem_singleton.mp member]
  · intro j h' found' m member at_j
    rw [sent, List.getElem?_set] at found'
    rcases List.mem_append.mp member with member | member
    · have time := logged.past m member s.reads le_rfl
      split at found'
      · rename_i here
        subst here
        rw [Option.some.injEq] at found'
        subst found'
        rw [last_stamp]
        split
        · rename_i same
          exact ⟨time, _, List.mem_append_right _ List.mem_cons_self, rfl, same.symm, rfl⟩
        · obtain ⟨before, m', member', rest⟩ := logged.last i h found m member at_j
          exact ⟨before, m', List.mem_append_left _ member', rest⟩
      · obtain ⟨before, m', member', rest⟩ := logged.last j h' found' m member at_j
        exact ⟨before, m', List.mem_append_left _ member', rest⟩
    · rw [List.mem_singleton.mp member] at at_j ⊢
      subst at_j
      rw [if_pos rfl, if_pos inside, Option.some.injEq] at found'
      subst found'
      have time : (h.stamp (clock s.reads) kind).last kind = clock s.reads :=
        (last_stamp h _ kind kind).trans (if_pos rfl)
      exact ⟨time.ge, _, List.mem_append_right _ List.mem_cons_self, rfl, rfl, time.symm⟩

theorem sent_sends (mono : Monotone clock)
    (found : s.handlers[i]? = some h) (service : ep.serviceIpVer = s.ep.serviceIpVer) :
    Sends clock s (s.sent clock kind false i h ep) :=
  ⟨sent_keeps false found service, sent_logged mono found⟩

theorem sent_has {periodic : Bool} :
    (s.sent clock kind periodic i h ep).Has i kind :=
  ⟨_, List.mem_append_right _ List.mem_cons_self, rfl, rfl⟩

theorem sendSearchHeader_sends (mono : Monotone clock) (host : Host) (s : Announcer) (i : Nat) :
    Sends clock s (s.sendSearchHeader clock host false i) := by
  rw [sendSearchHeader]
  cases found : s.handlers[i]? with
  | none => exact .refl clock s
  | some h => exact sent_sends mono found rfl

theorem sendSearchHeader_has (clock : Nat → Int) (host : Host) (due : s.Due i .search) :
    (s.sendSearchHeader clock host false i).Has i .search := by
  obtain ⟨h, found⟩ := due
  rw [sendSearchHeader, found]
  exact sent_has

theorem serviceIpVer_notify (host : Host) (ep : SSDPEndpoint) (data : SSDPEndpointData)
    (nts : Bytes) : (ep.sendNotifyHeader host data nts).serviceIpVer = ep.serviceIpVer := by
  rw [SSDPEndpoint.sendNotifyHeader]
  split <;> rfl

theorem sendNotifyHeader_sends (mono : Monotone clock) (host : Host) (s : Announcer) (i : Nat) :
    Sends clock s (s.sendNotifyHeader clock host false i) := by
  rw [sendNotifyHeader]
  cases found : s.handlers[i]? with
  | none => exact .refl clock s
  | some h =>
    dsimp only
    split
    · exact .refl clock s
    · exact sent_sends mono found (serviceIpVer_notify host s.ep h.data ntsAlive)

theorem sendNotifyHeader_has (clock : Nat → Int) (host : Host) (due : s.Due i .notify) :
    (s.sendNotifyHeader clock host false i).Has i .notify := by
  obtain ⟨h, found, served⟩ := due
  rw [sendNotifyHeader, found]
  dsimp only
  rw [if_neg served]
  exact sent_has

section All

variable {send : Announcer → Nat → Announcer} (sends : ∀ s i, Sends clock s (send s i))

include sends

theorem foldl_sends (is : List Nat) (s : Announcer) : Sends clock s (is.foldl send s) := by
  induction is generalizing s with
  | nil => exact .refl clock s
  | cons i is ih => exact (sends s i).trans (ih (send s i))

theorem foldl_has (has : ∀ s i, s.Due i kind → (send s i).Has i kind) {is : List Nat} :
    ∀ i ∈ is, s.Due i kind → (is.foldl send s).Has i kind := by
  induction is generalizing s with
  | nil => exact fun _ member => absurd member List.not_mem_nil
  | cons j is ih =>
    intro i member due
    cases member with
    | head =>
      have later := foldl_sends sends is (send s j)
      exact later.keeps.has (has s j due)
    | tail _ member => exact ih i member ((sends s j).keeps.due_iff.mpr due)

end All

structure Inv (clock : Nat → Int) (s : Announcer) : Prop extends s.Logged clock where
  sent : ∀ kind, s.enabled kind = true → ∀ i, s.Due i kind → s.Has i kind

theorem Inv.sends (inv : s.Inv clock) (sends : Sends clock s s') : s'.Inv clock where
  toLogged := sends.logged inv.toLogged
  sent kind enabled i due :=
    sends.keeps.has (inv.sent kind (sends.keeps.enabled ▸ enabled) i (sends.keeps.due_iff.mp due))

theorem inv_init (clock : Nat → Int) (datas : List SSDPEndpointData) : (init datas).Inv clock where
  past _ member := absurd member List.not_mem_nil
  aperiodic _ member := absurd member List.not_mem_nil
  last _ _ _ _ member := absurd member List.not_mem_nil
  sent kind enabled := by
    cases kind <;> cases enabled

theorem inv_all (kind : MessageKind) {send : Announcer → Nat → Announcer}
    (sends : ∀ s i, Sends clock s (send s i))
    (has : ∀ s i, s.Due i kind → (send s i).Has i kind) (logged : s.Logged clock)
    (others : ∀ kind', kind' ≠ kind → s.enabled kind' = true → ∀ i, s.Due i kind' →
      s.Has i kind') :
    ((List.range s.handlers.length).foldl send s).Inv clock := by
  have all := foldl_sends sends (List.range s.handlers.length) s
  refine ⟨all.logged logged, ?_⟩
  intro kind' enabled i due
  have due' := all.keeps.due_iff.mp due
  rcases eq_or_ne kind' kind with rfl | other
  · have inside : i < s.handlers.length := by
      cases kind' with
      | search => exact (List.getElem?_eq_some_iff.mp due'.choose_spec).1
      | notify => exact (List.getElem?_eq_some_iff.mp due'.choose_spec.1).1
    exact foldl_has sends has i (List.mem_range.mpr inside) due'
  · exact all.keeps.has (others kind' other (all.keeps.enabled ▸ enabled) i due')

theorem Inv.registerService (mono : Monotone clock) (inv : s.Inv clock) (uuid service : Bytes)
    (ipVer : Int32) : (s.registerService clock host uuid service ipVer).Inv clock := by
  refine inv_all (s := { s with
    ep := { s.ep with serviceIpVer := ipVer, uuid := uuid, service := service }
    periodicNotifyEnabled := true }) .notify (sendNotifyHeader_sends mono host)
    (fun s i => sendNotifyHeader_has clock host) ⟨inv.past, inv.aperiodic, inv.last⟩ ?_
  intro kind other enabled i due
  cases kind with
  | search => exact inv.sent .search enabled i due
  | notify => exact absurd rfl other

theorem Inv.getServerURLs (mono : Monotone clock) (inv : s.Inv clock) :
    (s.getServerURLs clock host).Inv clock := by
  rw [Announcer.getServerURLs]
  split
  · exact inv
  · refine inv_all (s := { s with periodicSearchEnabled := true }) .search
      (sendSearchHeader_sends mono host) (fun s i => sendSearchHeader_has clock host)
      ⟨inv.past, inv.aperiodic, inv.last⟩ ?_
    intro kind other enabled i due
    cases kind with
    | search => exact absurd rfl other
    | notify => exact inv.sent .notify enabled i due

theorem reading_sends (service : ep.serviceIpVer = s.ep.serviceIpVer) :
    Sends clock s { s with ep := ep, reads := s.reads + 1 } where
  keeps := ⟨fun _ member => member, rfl, service, rfl⟩
  logged logged := ⟨fun m member n later => logged.past m member n (Nat.le_of_succ_le later),
    logged.aperiodic, logged.last⟩

variable {datagrams : Nat → Option (Bytes × Bytes)}

theorem receive_sends (mono : Monotone clock)
    (done : s.receive clock host datagrams i = .ok s') : Sends clock s s' := by
  rw [receive] at done
  split at done
  · rename_i h recvAddr text found _
    obtain ⟨ep, handled, done⟩ := ok_of_bind done
    rcases SSDPEndpoint.handleDatagram_cases handled with ⟨answered, replied⟩ | ⟨none, quiet⟩
    · rw [if_pos answered] at done
      cases done
      exact sent_sends mono found replied.same
    · rw [none] at done
      cases done
      exact reading_sends quiet.2
  · cases done
    exact .refl clock s

theorem receiveAll_sends (mono : Monotone clock)
    {is : List Nat} (done : is.foldlM (receive clock host datagrams) s = .ok s') :
    Sends clock s s' := by
  induction is generalizing s with
  | nil =>
    cases done
    exact .refl clock _
  | cons i is ih =>
    rw [List.foldlM_cons] at done
    obtain ⟨next, first, rest⟩ := ok_of_bind done
    exact (receive_sends mono first).trans (ih rest)

variable {timeNow : Int}

theorem Inv.trigger (inv : s.Inv clock)
    (past : ∀ m ∈ s.messages, m.time ≤ timeNow) (host : Host) (i : Nat) :
    s.trigger clock host timeNow i = s := by
  have quiet : ∀ kind, s.enabled kind = true → s.Due i kind →
      s.handlers[i]?.any (fun h => h.last kind > timeNow + triggerTimeout) = false := by
    intro kind enabled due
    obtain ⟨m, member, at_i, same⟩ := inv.sent kind enabled i due
    cases found : s.handlers[i]? with
    | none => rfl
    | some h =>
      obtain ⟨_, m', member', _, same', time⟩ := inv.last i h found m member at_i
      have before := past m' member'
      rw [time, same] at before
      have timeout : 0 < triggerTimeout := by decide
      simp
      omega
  have search : (s.periodicSearchEnabled &&
      s.handlers[i]?.any (fun h => h.lastTimeSearch > timeNow + triggerTimeout)) = false := by
    cases enabled : s.periodicSearchEnabled with
    | false => rfl
    | true =>
      cases found : s.handlers[i]? with
      | none => rfl
      | some h =>
        have none := quiet .search enabled ⟨h, found⟩
        rwa [found] at none
  have notify : (if s.periodicNotifyEnabled &&
        s.handlers[i]?.any (fun h => h.lastTimeNotify > timeNow + triggerTimeout)
      then s.sendNotifyHeader clock host true i else s) = s := by
    split
    · rename_i triggered
      rw [Bool.and_eq_true] at triggered
      rw [sendNotifyHeader]
      cases found : s.handlers[i]? with
      | none => rfl
      | some h =>
        dsimp only
        split
        · rfl
        · rename_i served
          have none := quiet .notify triggered.1 ⟨h, found, served⟩
          have ahead : s.handlers[i]?.any
              (fun h => h.last .notify > timeNow + triggerTimeout) = true := triggered.2
          rw [none] at ahead
          cases ahead
    · rfl
  rw [Announcer.trigger, search]
  exact notify

theorem Inv.triggerAll (inv : s.Inv clock)
    (past : ∀ m ∈ s.messages, m.time ≤ timeNow) (host : Host) (is : List Nat) :
    is.foldl (Announcer.trigger clock host timeNow) s = s := by
  induction is with
  | nil => rfl
  | cons i is ih => rw [List.foldl_cons, inv.trigger past, ih]

theorem Inv.pass (mono : Monotone clock) (inv : s.Inv clock)
    (done : s.pass clock host datagrams = .ok (timeNow, s')) : s'.Inv clock := by
  rw [Announcer.pass] at done
  obtain ⟨received, receiving, done⟩ := ok_of_bind done
  have next : received.Inv clock := inv.sends (receiveAll_sends mono receiving)
  have expired : Announcer.Inv clock { received with
      ep := received.ep.expire (clock received.reads)
      reads := received.reads + 1 } := next.sends (reading_sends rfl)
  have past : ∀ m ∈ received.messages, m.time ≤ clock received.reads :=
    fun m member => next.past m member received.reads le_rfl
  have quiet := expired.triggerAll past host (List.range received.handlers.length)
  cases done
  rw [quiet]
  exact expired

theorem Inv.announced_busy (inv : s.Inv clock) (t : Int) : s.Announced t ↔ s.Busy t := by
  have iff : ∀ kind i h, s.handlers[i]? = some h → s.enabled kind = true → s.Due i kind →
      (t - triggerTimeout < h.last kind ↔ s.Recent t i kind) := by
    intro kind i h found enabled due
    obtain ⟨m, member, at_i, same⟩ := inv.sent kind enabled i due
    constructor
    · intro late
      obtain ⟨_, m', member', at_i', same', time⟩ := inv.last i h found m member at_i
      rw [same] at same' time
      exact ⟨m', member', at_i', same', inv.aperiodic m' member', time ▸ late⟩
    · rintro ⟨m', member', at_i', same', _, late⟩
      have before := (inv.last i h found m' member' at_i').1
      rw [same'] at before
      omega
  constructor
  · intro announced
    constructor
    · intro enabled i inside
      have found := List.getElem?_eq_getElem inside
      exact (iff .search i _ found enabled ⟨_, found⟩).mp
        (announced.search enabled _ (List.getElem_mem inside))
    · intro enabled i h found served
      exact (iff .notify i h found enabled ⟨h, found, served⟩).mp
        (announced.notify enabled h (List.mem_of_getElem? found) served)
  · intro busy
    constructor
    · intro enabled h member
      obtain ⟨i, inside, rfl⟩ := List.getElem_of_mem member
      have found := List.getElem?_eq_getElem inside
      exact (iff .search i _ found enabled ⟨_, found⟩).mpr (busy.search enabled i inside)
    · intro enabled h member served
      obtain ⟨i, inside, rfl⟩ := List.getElem_of_mem member
      have found := List.getElem?_eq_getElem inside
      exact (iff .notify i _ found enabled ⟨_, found, served⟩).mpr
        (busy.notify enabled i _ found served)

end Announcer

theorem inv_passes {clock : Nat → Int} (mono : Monotone clock) (host : Host) {s : Announcer}
    (inv : s.Inv clock) (actions : List SSDPAction) :
    ∀ p ∈ passes clock host s actions, p.2.Inv clock := by
  induction actions generalizing s with
  | nil => exact fun _ member => absurd member List.not_mem_nil
  | cons action rest ih =>
    cases action with
    | registerService uuid service ipVer =>
      exact ih (inv.registerService mono uuid service ipVer)
    | getServerURLs => exact ih (inv.getServerURLs mono)
    | pass datagrams =>
      rw [passes]
      cases done : s.pass clock host datagrams with
      | error e => exact fun _ member => absurd member List.not_mem_nil
      | ok p =>
        obtain ⟨timeNow, s'⟩ := p
        have next := inv.pass mono done
        intro p member
        cases member with
        | head => exact next
        | tail _ member => exact ih next p member

/-- Behind every pass the announcements are less than a minute old exactly when the searches and
    notifications that the rest of the endpoint has sent are. -/
theorem announced_iff (clock : Nat → Int) (mono : Monotone clock) (host : Host)
    (datas : List SSDPEndpointData) (actions : List SSDPAction) :
    (∀ p ∈ passes clock host (Announcer.init datas) actions, p.2.Announced p.1) ↔
      ∀ p ∈ passes clock host (Announcer.init datas) actions, p.2.Busy p.1 := by
  have inv := inv_passes mono host (Announcer.inv_init clock datas) actions
  exact forall₂_congr fun p member => (inv p member).announced_busy p.1

def eth0 : SSDPEndpointData := ⟨4, ascii "udp://239.255.255.250:1900", ascii "eth0"⟩

def serverHost : Host := ⟨ascii "host", ascii "SoapyRemote", ascii "Thu Jan  1 00:00:00 1970", 0⟩

def serverActions : List SSDPAction :=
  [.registerService (ascii "b1c2") (ascii "55132") 4, .pass (fun _ => none)]

theorem announced_at_once : ∃ p, passes (fun _ => 0) serverHost (Announcer.init [eth0])
    serverActions = [p] ∧ p.2.Announced p.1 := by
  refine ⟨_, rfl, (announced_iff (fun _ => 0) monotone_const serverHost [eth0]
    serverActions).mpr ?_ _ List.mem_cons_self⟩
  intro p member
  cases member with
  | tail _ member => cases member
  | head =>
    constructor
    · intro enabled
      cases enabled
    · intro _ i h found _
      cases i with
      | succ i => cases found
      | zero =>
        refine ⟨_, List.mem_cons_self, rfl, rfl, rfl, ?_⟩
        show (0 : Int) - triggerTimeout < 0
        decide

/-- A reading every 61 seconds. -/
def slowClock (n : Nat) : Int := 61000000000 * n

/-- At a pass 61 seconds later the service is not announced again. -/
theorem never_announced_again : Monotone slowClock ∧ ¬ ∀ p ∈
    passes slowClock serverHost (Announcer.init [eth0]) serverActions, p.2.Announced p.1 := by
  constructor
  · intro n m le
    unfold slowClock
    omega
  · intro all
    have announced := all _ List.mem_cons_self
    have served : (4 : Int32) &&& 4 ≠ 0 := by decide
    have late : (61000000000 : Int) - triggerTimeout < 0 :=
      announced.notify rfl ⟨eth0, 0, 0⟩ List.mem_cons_self served
    exact absurd late (by decide)

end Soapy.Remote
