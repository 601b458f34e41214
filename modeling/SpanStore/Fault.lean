import SpanStore.Number.Quantity
import SpanStore.Text.Preview
import SpanStore.Text.Quoted

/-!
Everything that can go wrong, as causes. `Fault.kind` sorts the causes, and `Fault.text?` words
them; a cause that stems from the form of a value alone has no wording.
-/
namespace SpanStore

/-- Kinds of faults: the store's own, then those of the transport, then those of no part in
particular. -/
inductive Kind where
  | store
  | configuration
  | client
  | connection
  | resolution
  | call
  | notFound
  | timeout
  | conversion
  | response
  | hits
  | bulk
  | batch
  | template
  | version
  | installation
  | storeConfig
  | health
  | transport
  | connectionTimeout
  | connectionLost
  | tls
  | serialization
  | runtime
  | value
  | wrongType
  | overflow
  | system
  | systemTimeout
  | encoding
  | other (name : String)
  deriving DecidableEq

namespace Kind

def isOwn : Kind → Bool
  | store | configuration | client | connection | resolution | call
  | notFound | timeout | conversion | response | hits | bulk
  | batch | template | version | installation | storeConfig
  | health => true
  | _ => false

/-- Faults that no later attempt can mend. -/
def isConfiguration : Kind → Bool
  | configuration | connection | storeConfig | version => true
  | _ => false

def isTransport : Kind → Bool
  | transport | connectionTimeout | connectionLost | tls | serialization => true
  | _ => false

def isSystem : Kind → Bool
  | system | systemTimeout => true
  | _ => false

/-- The text that every fault of the kind shows, whatever it was raised with. -/
def fixedText? : Kind → Option String
  | connectionTimeout => some "Connection timed out"
  | connectionLost => some "Connection error"
  | tls => some "TLS error"
  | _ => none

end Kind

inductive Fault where
  /-- Raised by the transport, a name lookup, a decoder, a serializer or a callback. -/
  | raised (kind : Kind) (message : String)
  | malformedUrl
  | unsupportedScheme (scheme url : String)
  | missingHost (url : String)
  | badPort (url : String)
  | noEndpoints
  | mixedSchemes (urls : List String)
  | mixedPorts (urls : List String)
  | secureCluster (urls : List String)
  | tooFewRequests (given : Quantity)
  | timeoutNotPositive (given : Quantity)
  | lookupFailed (host : String) (cause : Fault)
  | noAddress (host : String)
  | bracketedHost
  | closedToCalls (tag : String)
  | closedToSubmissions (tag : String)
  | timedOut (tag : String) (cause : Fault)
  | notSent (tag : String) (cause : Fault)
  | refused (tag : String) (status : Int) (body : List UInt8)
  | notConverted (tag : String) (cause : Fault)
  | bytesInBody
  | bytesInDocument
  | undecodableText
  | unreadablePath (place : String)
  | malformedHits
  | documentRejected (cause : Fault)
  | malformedBuckets
  | emptyIndexPrefix
  | undefinedInstant
  | unreachableInstant
  | yearBeyondClock
  | yearBeyondCalendar
  | dayBeyondCalendar
  | malformedDate
  | noNestedTerms
  | noIndices
  | emptyTypeName
  | emptyIndexName
  | emptyBatch (tag : String)
  | unsupportedVersion (version : Option String)
  | unknownBranch (name : String)
  | versionMissing
  | invalidStorage (cause : Fault)
  | emptyStorageIndex
  | tooFewShards (given : Quantity)
  | tooFewReplicas (given : Quantity)
  | healthUnreadable (body : List UInt8)
  | healthRed

namespace Fault

def raise (kind : Kind) (message : String) : Fault :=
  .raised kind (kind.fixedText?.getD message)

def kind : Fault → Kind
  | raised kind _ => kind
  | malformedUrl | bracketedHost | emptyIndexPrefix | undefinedInstant | yearBeyondCalendar
  | malformedDate | noNestedTerms | noIndices => .value
  | unsupportedScheme .. | missingHost _ | badPort _ | noEndpoints | mixedSchemes _ | mixedPorts _
  | secureCluster _ | tooFewRequests _ | timeoutNotPositive _ => .connection
  | lookupFailed .. | noAddress _ => .resolution
  | closedToCalls _ | closedToSubmissions _ => .client
  | timedOut .. => .timeout
  | notSent .. => .call
  | refused _ status _ => if status = 404 then .notFound else .call
  | notConverted .. => .conversion
  | bytesInBody => .serialization
  | bytesInDocument => .wrongType
  | undecodableText => .encoding
  | unreadablePath _ | malformedBuckets => .response
  | malformedHits | documentRejected _ => .hits
  | unreachableInstant | dayBeyondCalendar => .overflow
  | yearBeyondClock => .system
  | emptyTypeName | emptyIndexName | emptyBatch _ => .batch
  | unsupportedVersion _ | unknownBranch _ => .version
  | versionMissing => .installation
  | invalidStorage _ | emptyStorageIndex | tooFewShards _ | tooFewReplicas _ => .storeConfig
  | healthUnreadable _ | healthRed => .health

def unworded : String := "<detail>"

def text? : Fault → Option String
  | raised _ message => some message
  | malformedUrl | bracketedHost | bytesInBody | bytesInDocument | undecodableText
  | undefinedInstant | unreachableInstant | yearBeyondClock | yearBeyondCalendar
  | dayBeyondCalendar | malformedDate => none
  | unsupportedScheme scheme url => some ("不支持的协议 '" ++ scheme ++ "'，地址: " ++ url)
  | missingHost url => some ("地址中缺少主机: " ++ url)
  | badPort url => some ("端口不合法: " ++ url)
  | noEndpoints => some "hosts 不能为空，请提供至少一个 ES 节点地址"
  | mixedSchemes urls => some ("多个节点只支持同一种协议: " ++ Text.quotedList urls)
  | mixedPorts urls => some ("多个节点只支持同一个端口: " ++ Text.quotedList urls)
  | secureCluster urls => some ("多个节点只支持 http 协议: " ++ Text.quotedList urls)
  | tooFewRequests given => some ("max_requests 必须 >= 1，当前值: " ++ given.text)
  | timeoutNotPositive given => some ("request_timeout 必须 > 0，当前值: " ++ given.text)
  | lookupFailed host cause =>
      some ("无法解析主机名 '" ++ host ++ "': " ++ cause.text?.getD unworded)
  | noAddress host => some ("主机名 '" ++ host ++ "' 没有解析到任何地址")
  | closedToCalls tag => some ("调用工厂已关闭，无法执行 " ++ tag)
  | closedToSubmissions tag => some ("调用工厂已关闭，无法提交 " ++ tag)
  | timedOut tag cause => some (tag ++ " 请求超时: " ++ cause.text?.getD unworded)
  | notSent tag cause => some (tag ++ " 请求失败: " ++ cause.text?.getD unworded)
  | refused tag status body =>
      some (tag ++ " 请求失败: HTTP " ++ toString status ++ " " ++ String.ofList (Text.preview body))
  | notConverted tag cause => some (tag ++ " 响应解析失败: " ++ cause.text?.getD unworded)
  | unreadablePath place => some ("读取 ." ++ place ++ " 失败: " ++ unworded)
  | malformedHits => some ("查询结果不是合法 JSON: " ++ unworded)
  | documentRejected cause => some ("文档解码失败: " ++ cause.text?.getD unworded)
  | malformedBuckets => some ("聚合结果不是合法 JSON: " ++ unworded)
  | emptyIndexPrefix => some "index 前缀不能为空"
  | noNestedTerms => some "nested_terms 不能为空"
  | noIndices => some "indices 不能为空"
  | emptyTypeName => some "type_name 不能为空"
  | emptyIndexName => some "index_name 不能为空"
  | emptyBatch tag => some (tag ++ ": 批次为空，没有可写入的文档")
  | unsupportedVersion version =>
      some ("只支持 Elasticsearch 2.x 和 5.x，当前版本: " ++ version.getD "None")
  | unknownBranch name => some ("不支持的模板分支: " ++ name)
  | versionMissing => some ".version.number 不在响应中"
  | invalidStorage cause => cause.text?
  | emptyStorageIndex => some "index 不能为空"
  | tooFewShards given => some ("index_shards 必须 >= 1，当前值: " ++ given.text)
  | tooFewReplicas given => some ("index_replicas 必须 >= 0，当前值: " ++ given.text)
  | healthUnreadable body =>
      some ("无法读取健康状态: " ++ String.ofList (Text.Utf8.decodeLossy body))
  | healthRed => some "健康状态为 RED"

end Fault

end SpanStore
