import VermouthGateway.Cluster.StandMode
import VermouthGateway.Cluster.Wire

/-!
# The http server

The handlers of the management interface that change something.  They differ in
the body they decode, in the method they call with it, and one of them in the
status of a refusal: `handleWrite` is what they share.

A handler that panics is recovered by `net/http`, which closes the connection:
the request has no response, and what it did stays done.  Requests are handled
one after the other.  `jsoniter` is a parameter, and so is what raft does with
an entry it is handed.

* `called`: what a method of the interface can do.
* `calledWith`: the same with a raft that can fail.
* `handle_cases`: what one request can do, and with which response.
-/

namespace VermouthGateway
namespace Cluster

open Go Proxy Balancing Runs
open EStateM (Result)

structure HttpRequest where
  method : String
  body : String

structure HttpResponse where
  status : Nat
  body : String
deriving DecidableEq

def methodGet : String := "GET"

def statusOK : Nat := 200
def statusBadRequest : Nat := 400
def statusMethodNotAllowed : Nat := 405
def statusInternalServerError : Nat := 500

/-- `utils.ReadFromRequest` into a body of a type. -/
abbrev ReadFromRequest := (type : BodyType) → String → Option type.Value

/-- What becomes of an entry that is handed to raft. -/
inductive Future
  | committed
  | failed
  /-- The future fails, but the entry is committed. -/
  | unconfirmed
deriving DecidableEq

/-- The server with the node behind it. -/
structure HttpServer where
  enableWrite : Int
  vermouth : Vermouth

/-! ## Calls of the interface that can fail -/

inductive CallError
  | api (e : ApiError)
  | raft

/-- A method of the interface on a node whose raft can fail.  Appending is the
last thing a method does, so the error of its future is that of the method. -/
def ApiRequest.callWith (future : Future) (request : ApiRequest) :
    Eff Vermouth (Except CallError Unit) := do
  let before ← get
  let answer ← request.call
  match answer with
  | .error e => pure (.error (.api e))
  | .ok () =>
      let after ← get
      -- nothing was handed to raft
      if after.raftLog.length = before.raftLog.length then pure (.ok ())
      else
        match future with
        | .committed => pure (.ok ())
        | .failed => do
            set { after with raftLog := before.raftLog }
            pure (.error .raft)
        | .unconfirmed => pure (.error .raft)

/-- The entry a method appends in cluster mode. -/
def ApiRequest.entry : ApiRequest → LogEntry
  | .addHttpProxy body => .addHttpProxy body
  | .addHttpProxyPrefix body => .addHttpProxyPrefix body
  | .removeHttpProxyPrefix body => .rmvHttpProxyPrefix body
  | .addHttpProxyHost body => .addHttpProxyHost body
  | .removeHttpProxyHost body => .rmvHttpProxyHost body
  | .addBlackList body => .addHttpBlackList body
  | .removeBlackList body => .rmvHttpBlackList body
  | .setRateLimiter body => .setRateLimiter body
  | .changeStatic body => .chgStatic body
  | .changeLb body => .chgLb body
  | .changeProxyAvailable body => .chgState body

/-! ## The handlers -/

namespace HttpServer

def onVermouth {α : Type} (body : Eff Vermouth α) : Eff HttpServer α :=
  focus (fun server => some server.vermouth)
    (fun vermouth server => { server with vermouth := vermouth }) body

/-- `SetWriteFlag`. -/
def setWriteFlag (flag : Bool) (server : HttpServer) : HttpServer :=
  { server with enableWrite := if flag then 1 else 0 }

/-- `checkWritePermission`. -/
def checkWritePermission (server : HttpServer) : Bool := server.enableWrite = 1

/-- What the handlers share.  `refused` is the status for an error of the
method. -/
def handleWrite (read : ReadFromRequest) (future : Future) (type : BodyType)
    (request : type.Value → ApiRequest) (refused : Nat) (r : HttpRequest) :
    Eff HttpServer HttpResponse := do
  if r.method = methodGet then pure ⟨statusMethodNotAllowed, ""⟩
  else
    let server ← get
    -- the status stays 200: the client reads the body
    if !server.checkWritePermission then pure ⟨statusOK, "Not Leader"⟩
    else
      match read type r.body with
      | none => pure ⟨statusBadRequest, ""⟩
      | some body => do
          let answer ← onVermouth ((request body).callWith future)
          match answer with
          | .error _ => pure ⟨refused, ""⟩
          | .ok () => pure ⟨statusOK, "success"⟩

end HttpServer

/-- The handlers that change something, by their names. -/
inductive Handler
  | doAddProxy
  | doChangeHttpProxyState
  | doAddProxyPrefix
  | doRemoveProxyPrefix
  | doRemoveHost
  | doAddHost
  | doAddBlackList
  | doRemoveBlackList
  | doSetRateLimiter
  | doChangeStatic
  | doChangeLb
deriving DecidableEq

namespace Handler

/-- The path a handler is added for. -/
def path : Handler → String
  | doAddProxy => "/http/add/proxy"
  | doChangeHttpProxyState => "/http/change"
  | doAddProxyPrefix => "/http/add/prefix"
  | doRemoveProxyPrefix => "/http/remove/prefix"
  | doRemoveHost => "/http/remove/host"
  | doAddHost => "/http/add/host"
  | doAddBlackList => "/http/add/black-list"
  | doRemoveBlackList => "/http/remove/black-list"
  | doSetRateLimiter => "/http/set/rate"
  | doChangeStatic => "/http/change/static"
  | doChangeLb => "/http/change/lb"

/-- The body a handler decodes. -/
def type : Handler → BodyType
  | doAddProxy => .addHttpProxyBody
  | doChangeHttpProxyState => .changeHttpProxyStateBody
  | doAddProxyPrefix => .addHttpProxyPrefixBody
  | doRemoveProxyPrefix => .removeHttpProxyPrefixBody
  | doRemoveHost => .httpProxyHostBody
  | doAddHost => .httpProxyHostBody
  | doAddBlackList => .httpBlackListBody
  | doRemoveBlackList => .httpBlackListBody
  | doSetRateLimiter => .httpRateLimiterBody
  | doChangeStatic => .httpChangeStatic
  | doChangeLb => .httpChangeLbBody

/-- The method a handler calls. -/
def request : (handler : Handler) → handler.type.Value → ApiRequest
  | doAddProxy, body => .addHttpProxy body
  | doChangeHttpProxyState, body => .changeProxyAvailable body
  | doAddProxyPrefix, body => .addHttpProxyPrefix body
  | doRemoveProxyPrefix, body => .removeHttpProxyPrefix body
  | doRemoveHost, body => .removeHttpProxyHost body
  | doAddHost, body => .addHttpProxyHost body
  | doAddBlackList, body => .addBlackList body
  | doRemoveBlackList, body => .removeBlackList body
  | doSetRateLimiter, body => .setRateLimiter body
  | doChangeStatic, body => .changeStatic body
  | doChangeLb, body => .changeLb body

/-- The status of a refusal by the method. -/
def refused : Handler → Nat
  -- a bad request, where the others have an internal error
  | doChangeStatic => statusBadRequest
  | _ => statusInternalServerError

def run (handler : Handler) (read : ReadFromRequest) (future : Future) (r : HttpRequest) :
    Eff HttpServer HttpResponse :=
  HttpServer.handleWrite read future handler.type handler.request handler.refused r

/-- The call a request decodes to. -/
def decoded (handler : Handler) (read : ReadFromRequest) (r : HttpRequest) :
    Option ApiRequest :=
  (read handler.type r.body).map handler.request

end Handler

/-! ## One call -/

section Calls

variable {v : Vermouth}

/-- The end of a method: its change in stand mode, its entry in cluster mode. -/
theorem run_byMode (stand : Eff StateContext Unit) (entry : LogEntry) (v : Vermouth) :
    EStateM.run (Vermouth.byMode stand entry) v =
      match v.mode with
      | .stand =>
          match EStateM.run stand v.ctx with
          | .ok _ ctx => .ok (.ok ()) { v with ctx := ctx }
          | .error e ctx => .error e { v with ctx := ctx }
      | .cluster => .ok (.ok ()) { v with raftLog := v.raftLog ++ [entry] } := by
  obtain ⟨mode, ctx, raftLog⟩ := v
  cases mode with
  | cluster => rfl
  | stand =>
      rw [Vermouth.byMode, EStateM.run_bind, EStateM.run_get]
      dsimp only
      have hctx : EStateM.run (Vermouth.onCtx stand) ⟨.stand, ctx, raftLog⟩ =
          embed (fun ctx => ⟨.stand, ctx, raftLog⟩) (EStateM.run stand ctx) := rfl
      rw [EStateM.run_bind, hctx]
      cases EStateM.run stand ctx <;> rfl

/-- A method is refused, or it finds the balancer as it should be, or its router
is nil, or it ends with the switch. -/
inductive Called (request : ApiRequest) (v : Vermouth) :
    Result Halt Vermouth (Except ApiError Unit) → Prop
  | refused (e : ApiError) : Called request v (.ok (.error e) v)
  | already {body : HttpChangeLbBody} (hrequest : request = .changeLb body) :
      Called request v (.ok (.ok ()) v)
  | panicked (fault : Fault) : Called request v (.error (.panic fault) v)
  | switched : Called request v
      (EStateM.run (Vermouth.byMode (StateContext.apply request.entry) request.entry) v)

theorem called_withProxy (request : ApiRequest) {port : Int}
    (check : HttpReverseProxy → Option ApiError) :
    Called request v (EStateM.run (Vermouth.withProxy port check
      (StateContext.apply request.entry) request.entry) v) := by
  cases hproxy : v.ctx.httpReverseProxyList.lookup port with
  | none =>
      rw [Vermouth.run_withProxy_missing hproxy]
      exact .refused _
  | some proxy =>
      cases hcheck : check proxy with
      | some e =>
          rw [Vermouth.run_withProxy_refused hproxy hcheck]
          exact .refused e
      | none =>
          rw [Vermouth.withProxy, EStateM.run_bind, EStateM.run_get]
          dsimp only
          rw [hproxy]
          dsimp only
          rw [hcheck]
          exact .switched

theorem called_standProxy (request : ApiRequest) {port : Int} :
    Called request v (EStateM.run (Vermouth.standProxy port
      (StateContext.apply request.entry) request.entry) v) := by
  have hswitched : Called request v _ := .switched
  rw [Vermouth.standProxy, EStateM.run_bind, EStateM.run_get]
  dsimp only
  cases hmode : v.mode with
  | cluster =>
      rw [Vermouth.byMode, EStateM.run_bind, EStateM.run_get] at hswitched
      dsimp only at hswitched
      rw [hmode] at hswitched
      exact hswitched
  | stand =>
      dsimp only
      rw [run_ite]
      split
      · rw [Vermouth.byMode, EStateM.run_bind, EStateM.run_get] at hswitched
        dsimp only at hswitched
        rw [hmode] at hswitched
        exact hswitched
      · exact .refused _

theorem called_changeLb (body : HttpChangeLbBody) :
    Called (.changeLb body) v (EStateM.run (Vermouth.changeLb body) v) := by
  have hswitched : Called (.changeLb body) v _ := .switched
  rw [Vermouth.changeLb, EStateM.run_bind, EStateM.run_get]
  dsimp only
  cases v.ctx.httpReverseProxyList.lookup body.port with
  | none => exact .refused _
  | some proxy =>
  dsimp only
  cases proxy.prefixMapping with
  | none => exact .panicked _
  | some p =>
  dsimp only
  cases p.getBalancer body.prefixPath with
  | none => exact .refused _
  | some b =>
  dsimp only
  rw [run_ite]
  split
  · exact .already rfl
  · exact hswitched

theorem called (request : ApiRequest) (v : Vermouth) :
    Called request v (EStateM.run request.call v) := by
  cases request with
  | addHttpProxy body =>
      have hswitched : Called (.addHttpProxy body) v _ := .switched
      show Called _ v (EStateM.run (Vermouth.addHttpProxy body) v)
      rw [Vermouth.addHttpProxy, EStateM.run_bind, EStateM.run_get]
      dsimp only
      rw [run_ite]
      split
      · exact .refused _
      · exact hswitched
  | addBlackList body => exact called_standProxy (.addBlackList body)
  | removeBlackList body => exact called_standProxy (.removeBlackList body)
  | changeLb body => exact called_changeLb body
  | setRateLimiter body => exact called_withProxy (.setRateLimiter body) fun _ => none
  | changeStatic body => exact called_withProxy (.changeStatic body) fun _ => none
  | changeProxyAvailable body =>
      exact called_withProxy (.changeProxyAvailable body) fun _ => none
  | addHttpProxyPrefix body => exact called_withProxy (.addHttpProxyPrefix body) _
  | removeHttpProxyPrefix body => exact called_withProxy (.removeHttpProxyPrefix body) _
  | addHttpProxyHost body => exact called_withProxy (.addHttpProxyHost body) _
  | removeHttpProxyHost body => exact called_withProxy (.removeHttpProxyHost body) _

/-- A call with a raft that can fail. -/
inductive CalledWith (future : Future) (request : ApiRequest) (v : Vermouth) :
    Result Halt Vermouth (Except CallError Unit) → Prop
  | refused (e : CallError) : CalledWith future request v (.ok (.error e) v)
  | already {body : HttpChangeLbBody} (hrequest : request = .changeLb body) :
      CalledWith future request v (.ok (.ok ()) v)
  | panicked (fault : Fault) : CalledWith future request v (.error (.panic fault) v)
  | appended {answer : Except CallError Unit} (hmode : v.mode = .cluster)
      (hanswer : answer = .ok () ∨ future = .unconfirmed) :
      CalledWith future request v
        (.ok answer { v with raftLog := v.raftLog ++ [request.entry] })
  | applied {ctx : StateContext} (hmode : v.mode = .stand)
      (hrun : EStateM.run (StateContext.apply request.entry) v.ctx = .ok () ctx) :
      CalledWith future request v (.ok (.ok ()) { v with ctx := ctx })
  | halted {e : Halt} {ctx : StateContext} (hmode : v.mode = .stand)
      (hrun : EStateM.run (StateContext.apply request.entry) v.ctx = .error e ctx) :
      CalledWith future request v (.error e { v with ctx := ctx })

theorem calledWith (future : Future) (request : ApiRequest) (v : Vermouth) :
    CalledWith future request v (EStateM.run (request.callWith future) v) := by
  have hcall := called request v
  rw [ApiRequest.callWith, EStateM.run_bind, EStateM.run_get]
  dsimp only
  rw [EStateM.run_bind]
  generalize hresult : EStateM.run request.call v = result at hcall
  cases hcall with
  | refused e => exact .refused _
  | already hrequest =>
      dsimp only
      rw [EStateM.run_bind, EStateM.run_get]
      dsimp only
      rw [if_pos rfl]
      exact .already hrequest
  | panicked fault => exact .panicked fault
  | switched =>
      obtain ⟨mode, ctx₀, raftLog⟩ := v
      rw [run_byMode]
      cases mode with
      | stand =>
          dsimp only
          cases happly : EStateM.run (StateContext.apply request.entry) ctx₀ with
          | error e ctx => exact .halted rfl happly
          | ok u ctx =>
              dsimp only
              rw [EStateM.run_bind, EStateM.run_get]
              dsimp only
              rw [if_pos rfl]
              exact .applied rfl happly
      | cluster =>
          dsimp only
          rw [EStateM.run_bind, EStateM.run_get]
          dsimp only
          -- the log is longer than before, so it is the future that answers
          rw [if_neg (by rw [List.length_append]; simp)]
          cases future with
          | committed => exact .appended rfl (Or.inl rfl)
          | failed => exact .refused .raft
          | unconfirmed => exact .appended rfl (Or.inr rfl)

end Calls

/-! ## One request -/

/-- The response of an acknowledged request. -/
def HttpResponse.success : HttpResponse := ⟨statusOK, "success"⟩

/-- The response to a request, when there is one. -/
def answered : Result Halt HttpServer HttpResponse → Option HttpResponse
  | .ok response _ => some response
  | .error _ _ => none

/-- The server with another state behind it. -/
def HttpServer.withCtx (server : HttpServer) (ctx : StateContext) : HttpServer :=
  { server with vermouth := { server.vermouth with ctx := ctx } }

/-- The server with one more entry in the log. -/
def HttpServer.append (server : HttpServer) (entry : LogEntry) : HttpServer :=
  { server with vermouth :=
      { server.vermouth with raftLog := server.vermouth.raftLog ++ [entry] } }

/-- What a handler does.  Where something changes, the request was permitted and
decoded. -/
inductive Handled (read : ReadFromRequest) (server : HttpServer) (handler : Handler)
    (r : HttpRequest) (future : Future) : Result Halt HttpServer HttpResponse → Prop
  | refused {response : HttpResponse} (hne : response ≠ .success) :
      Handled read server handler r future (.ok response server)
  | already (hhandler : handler = .doChangeLb) (hpermitted : server.checkWritePermission = true)
      {request : ApiRequest} (hdecoded : handler.decoded read r = some request) :
      Handled read server handler r future (.ok .success server)
  | panicked (fault : Fault) : Handled read server handler r future (.error (.panic fault) server)
  | appended (hpermitted : server.checkWritePermission = true) {request : ApiRequest}
      (hdecoded : handler.decoded read r = some request) (hmode : server.vermouth.mode = .cluster)
      {response : HttpResponse} (hresponse : response = .success ∨ future = .unconfirmed) :
      Handled read server handler r future (.ok response (server.append request.entry))
  | applied (hpermitted : server.checkWritePermission = true) {request : ApiRequest}
      (hdecoded : handler.decoded read r = some request) (hmode : server.vermouth.mode = .stand)
      {ctx : StateContext} (hrun : EStateM.run (StateContext.apply request.entry)
        server.vermouth.ctx = .ok () ctx) :
      Handled read server handler r future (.ok .success (server.withCtx ctx))
  | halted (hmode : server.vermouth.mode = .stand) (e : Halt) (ctx : StateContext) :
      Handled read server handler r future (.error e (server.withCtx ctx))

theorem Handler.eq_doChangeLb {handler : Handler} {body : handler.type.Value}
    {lb : HttpChangeLbBody} (h : handler.request body = .changeLb lb) : handler = .doChangeLb := by
  cases handler <;> first | rfl | cases h

/-- The status of an error is never that of success. -/
theorem Handler.refused_ne (handler : Handler) :
    (⟨handler.refused, ""⟩ : HttpResponse) ≠ .success := by
  cases handler <;> decide

theorem handle_cases (read : ReadFromRequest) (server : HttpServer) (handler : Handler)
    (r : HttpRequest) (future : Future) :
    Handled read server handler r future (EStateM.run (handler.run read future r) server) := by
  rw [Handler.run, HttpServer.handleWrite, run_ite]
  split
  · exact .refused (by decide)
  rw [EStateM.run_bind, EStateM.run_get]
  dsimp only
  rw [run_ite]
  cases hpermitted : server.checkWritePermission with
  | false => exact .refused (by decide)
  | true =>
  rw [if_neg (by decide)]
  cases hread : read handler.type r.body with
  | none => exact .refused (by decide)
  | some body =>
  have hdecoded : handler.decoded read r = some (handler.request body) := by
    rw [Handler.decoded, hread]
    rfl
  dsimp only
  rw [EStateM.run_bind]
  have hfocus : EStateM.run (HttpServer.onVermouth ((handler.request body).callWith future))
      server = embed (fun vermouth => { server with vermouth := vermouth })
        (EStateM.run ((handler.request body).callWith future) server.vermouth) := rfl
  rw [hfocus]
  have hcall := calledWith future (handler.request body) server.vermouth
  generalize EStateM.run ((handler.request body).callWith future) server.vermouth = result
    at hcall
  cases hcall with
  | refused e => exact .refused handler.refused_ne
  | already hrequest => exact .already (Handler.eq_doChangeLb hrequest) hpermitted hdecoded
  | panicked fault => exact .panicked fault
  | @appended answer hmode hanswer =>
      cases answer with
      | ok u => exact .appended hpermitted hdecoded hmode (Or.inl rfl)
      | error e =>
          refine .appended hpermitted hdecoded hmode (Or.inr (hanswer.resolve_left ?_))
          exact fun h => by cases h
  | applied hmode hrun => exact .applied hpermitted hdecoded hmode hrun
  | halted hmode hrun => exact .halted hmode _ _

end Cluster
end VermouthGateway
