import KsmbdTools.Management.User

/-! The SPNEGO authentication request: a Kerberos token is checked by the GSS
library, and the name it gives is logged in. -/

namespace KsmbdTools.Management

/-- `struct ksmbd_spnego_authen_request` and the size of the message it came in. -/
structure SpnegoAuthenRequest where
  handle : UInt32
  spnegoBlobLen : UInt16
  spnegoBlob : List UInt8
  msgSz : Nat

/-- `struct ksmbd_spnego_auth_out` of a token that was accepted. -/
structure SpnegoAuthOut where
  spnegoBlob : List UInt8
  sessKey : List UInt8
  userName : Option CStr

structure SpnegoAuthenResponse where
  handle : UInt32
  loginResponse : LoginResponse := {}
  sessionKeyLen : UInt16 := 0
  spnegoBlobLen : UInt16 := 0
  payload : List UInt8 := []
  deriving DecidableEq

inductive SpnegoRet where
  | ok
  | einval
  | enomem
  | eperm
  | eoverflow
  deriving DecidableEq, Repr

/-- Whether the two allocations of the handler find memory. -/
structure SpnegoMemory where
  reply : Bool := true
  extended : Bool := true

/-- `sizeof(struct ksmbd_spnego_authen_request)`. -/
def spnegoRequestSize : Nat := 8

/-- `sizeof(struct ksmbd_spnego_authen_response)`. -/
def spnegoResponseSize : Nat := 364

/-- `spnego_authen_request`, with `authen` for `spnego_handle_authen_request`. `stack` is
what the memory of `login_req` holds on entry: the handler writes the handle, which the
login does not read, and the account. -/
def State.spnegoAuthenRequest (authen : SpnegoAuthenRequest → Option SpnegoAuthOut) (memory : SpnegoMemory)
    (stack : LoginRequest) (state : State) (req : SpnegoAuthenRequest) :
    State × Option SpnegoAuthenResponse × SpnegoRet :=
  if !ipcMsgAlloc memory.reply spnegoResponseSize then (state, none, .enomem)
  else
    let resp : SpnegoAuthenResponse := { handle := req.handle }
    if req.msgSz < spnegoRequestSize then (state, some resp, .einval)
    else if req.msgSz - spnegoRequestSize < req.spnegoBlobLen.toNat then (state, some resp, .einval)
    else match authen req with
      | none => (state, some resp, .eperm)
      | some authOut =>
        if 65535 < authOut.sessKey.length ∨ 65535 < authOut.spnegoBlob.length then (state, some resp, .eoverflow)
        else if !ipcMsgAlloc memory.extended
            (spnegoResponseSize + authOut.sessKey.length + authOut.spnegoBlob.length) then (state, some resp, .enomem)
        else match authOut.userName with
          | none => (state, some resp, .einval)
          | some name =>
            let loginReq := { stack with account := stack.account.strlcpy name }
            let (state, loginResponse) := state.usmHandleLoginRequest loginReq
            let resp := { resp with loginResponse }
            if loginResponse.status &&& UserFlag.ok.toUInt16 = 0 then (state, some resp, .ok)
            else
              (state, some { resp with
                sessionKeyLen := authOut.sessKey.length.toUInt16, spnegoBlobLen := authOut.spnegoBlob.length.toUInt16,
                payload := authOut.sessKey ++ authOut.spnegoBlob }, .ok)

end KsmbdTools.Management
