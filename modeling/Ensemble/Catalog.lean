import Ensemble.Record.Basic

/-! # The record catalog

The protocol knows 32 record classes: three of the `data` module (an identity, an access
control entry, a node's metadata) and 29 of the `protocol` module (the headers, and the
requests and replies of the operations). A class is found by its module and name, exactly.

`requestSchema?` gives the class of a request's body for an operation and `responseSchema?` the
class of a reply's body; operations without a body have none.
-/

namespace Ensemble.Catalog

/-- The type `vector<ustring>`. -/
def ustringVector : FieldType := .vector .ustring

/-- The class `data.Id`: a scheme and an id. -/
def id : Schema := .mk "data" "Id" [.mk "scheme" .ustring, .mk "id" .ustring]

/-- The class `data.ACL`: permissions and an identity. -/
def acl : Schema := .mk "data" "ACL" [.mk "perms" .int, .mk "id" (.record id)]

/-- The class `data.Stat`: a node's metadata. -/
def stat : Schema := .mk "data" "Stat"
  [.mk "czxid" .long, .mk "mzxid" .long, .mk "ctime" .long, .mk "mtime" .long,
    .mk "version" .int, .mk "cversion" .int, .mk "aversion" .int, .mk "ephemeralOwner" .long,
    .mk "dataLength" .int, .mk "numChildren" .int, .mk "pzxid" .long]

/-- The type `vector<data.ACL>`. -/
def aclVector : FieldType := .vector (.record acl)

/-- A class of the `protocol` module. -/
def proto (name : String) (fields : List Field) : Schema := .mk "protocol" name fields

/-- The class `protocol.ConnectRequest`. -/
def connectRequest : Schema := proto "ConnectRequest"
  [.mk "protocolVersion" .int, .mk "lastZxidSeen" .long, .mk "timeOut" .int,
    .mk "sessionId" .long, .mk "passwd" .buffer]

/-- The class `protocol.ConnectResponse`. -/
def connectResponse : Schema := proto "ConnectResponse"
  [.mk "protocolVersion" .int, .mk "timeOut" .int, .mk "sessionId" .long, .mk "passwd" .buffer]

/-- The class `protocol.SetWatches`. -/
def setWatches : Schema := proto "SetWatches"
  [.mk "relativeZxid" .long, .mk "dataWatches" ustringVector, .mk "existWatches" ustringVector,
    .mk "childWatches" ustringVector]

/-- The class `protocol.RequestHeader`. -/
def requestHeader : Schema := proto "RequestHeader" [.mk "xid" .int, .mk "type" .int]

/-- The class `protocol.MultiHeader`. -/
def multiHeader : Schema := proto "MultiHeader" [.mk "type" .int, .mk "done" .boolean, .mk "err" .int]

/-- The class `protocol.AuthPacket`. -/
def authPacket : Schema := proto "AuthPacket"
  [.mk "type" .int, .mk "scheme" .ustring, .mk "auth" .buffer]

/-- The class `protocol.ReplyHeader`. -/
def replyHeader : Schema := proto "ReplyHeader" [.mk "xid" .int, .mk "zxid" .long, .mk "err" .int]

/-- The class `protocol.GetDataRequest`. -/
def getDataRequest : Schema := proto "GetDataRequest" [.mk "path" .ustring, .mk "watch" .boolean]

/-- The class `protocol.SetDataRequest`. -/
def setDataRequest : Schema := proto "SetDataRequest"
  [.mk "path" .ustring, .mk "data" .buffer, .mk "version" .int]

/-- The class `protocol.SetDataResponse`. -/
def setDataResponse : Schema := proto "SetDataResponse" [.mk "stat" (.record stat)]

/-- The class `protocol.CreateRequest`. -/
def createRequest : Schema := proto "CreateRequest"
  [.mk "path" .ustring, .mk "data" .buffer, .mk "acl" aclVector, .mk "flags" .int]

/-- The class `protocol.DeleteRequest`. -/
def deleteRequest : Schema := proto "DeleteRequest" [.mk "path" .ustring, .mk "version" .int]

/-- The class `protocol.GetChildrenRequest`. -/
def getChildrenRequest : Schema := proto "GetChildrenRequest"
  [.mk "path" .ustring, .mk "watch" .boolean]

/-- The class `protocol.GetChildren2Request`. -/
def getChildren2Request : Schema := proto "GetChildren2Request"
  [.mk "path" .ustring, .mk "watch" .boolean]

/-- The class `protocol.CheckVersionRequest`. -/
def checkVersionRequest : Schema := proto "CheckVersionRequest"
  [.mk "path" .ustring, .mk "version" .int]

/-- The class `protocol.SyncRequest`. -/
def syncRequest : Schema := proto "SyncRequest" [.mk "path" .ustring]

/-- The class `protocol.SyncResponse`. -/
def syncResponse : Schema := proto "SyncResponse" [.mk "path" .ustring]

/-- The class `protocol.GetACLRequest`. -/
def getAclRequest : Schema := proto "GetACLRequest" [.mk "path" .ustring]

/-- The class `protocol.SetACLRequest`. -/
def setAclRequest : Schema := proto "SetACLRequest"
  [.mk "path" .ustring, .mk "acl" aclVector, .mk "version" .int]

/-- The class `protocol.SetACLResponse`. -/
def setAclResponse : Schema := proto "SetACLResponse" [.mk "stat" (.record stat)]

/-- The class `protocol.WatcherEvent`. -/
def watcherEvent : Schema := proto "WatcherEvent"
  [.mk "type" .int, .mk "state" .int, .mk "path" .ustring]

/-- The class `protocol.ErrorResponse`. -/
def errorResponse : Schema := proto "ErrorResponse" [.mk "err" .int]

/-- The class `protocol.CreateResponse`. -/
def createResponse : Schema := proto "CreateResponse" [.mk "path" .ustring]

/-- The class `protocol.ExistsRequest`. -/
def existsRequest : Schema := proto "ExistsRequest" [.mk "path" .ustring, .mk "watch" .boolean]

/-- The class `protocol.ExistsResponse`. -/
def existsResponse : Schema := proto "ExistsResponse" [.mk "stat" (.record stat)]

/-- The class `protocol.GetDataResponse`. -/
def getDataResponse : Schema := proto "GetDataResponse"
  [.mk "data" .buffer, .mk "stat" (.record stat)]

/-- The class `protocol.GetChildrenResponse`. -/
def getChildrenResponse : Schema := proto "GetChildrenResponse" [.mk "children" ustringVector]

/-- The class `protocol.GetChildren2Response`. -/
def getChildren2Response : Schema := proto "GetChildren2Response"
  [.mk "children" ustringVector, .mk "stat" (.record stat)]

/-- The class `protocol.GetACLResponse`. -/
def getAclResponse : Schema := proto "GetACLResponse"
  [.mk "acl" aclVector, .mk "stat" (.record stat)]

/-- Every record class of the protocol. -/
def all : List Schema :=
  [id, acl, stat, connectRequest, connectResponse, setWatches, requestHeader, multiHeader,
    authPacket, replyHeader, getDataRequest, setDataRequest, setDataResponse, createRequest,
    deleteRequest, getChildrenRequest, getChildren2Request, checkVersionRequest, syncRequest,
    syncResponse, getAclRequest, setAclRequest, setAclResponse, watcherEvent, errorResponse,
    createResponse, existsRequest, existsResponse, getDataResponse, getChildrenResponse,
    getChildren2Response, getAclResponse]

/-- The class with a given module and name, if the protocol knows it. -/
def find? (module name : String) : Option Schema :=
  all.find? fun s => s.module == module && s.name == name

/-- The class with a given module and name, or a protocol error. -/
def find (module name : String) : Except Error Schema :=
  match find? module name with
  | some s => .ok s
  | none => .error (.protocol (.unknownRecordClass module name))

/-- The class of a request's body for an operation, if it has one. -/
def requestSchema? : OpCode → Option Schema
  | .create => some createRequest
  | .delete => some deleteRequest
  | .exists => some existsRequest
  | .getData => some getDataRequest
  | .setData => some setDataRequest
  | .getAcl => some getAclRequest
  | .setAcl => some setAclRequest
  | .getChildren => some getChildrenRequest
  | .getChildren2 => some getChildren2Request
  | .sync => some syncRequest
  | .check => some checkVersionRequest
  | .auth => some authPacket
  | .setWatches => some setWatches
  | _ => none

/-- The class of a reply's body for an operation, if it has one. -/
def responseSchema? : OpCode → Option Schema
  | .create => some createResponse
  | .exists => some existsResponse
  | .getData => some getDataResponse
  | .setData => some setDataResponse
  | .getAcl => some getAclResponse
  | .setAcl => some setAclResponse
  | .getChildren => some getChildrenResponse
  | .getChildren2 => some getChildren2Response
  | .sync => some syncResponse
  | .notification => some watcherEvent
  | _ => none

end Ensemble.Catalog
