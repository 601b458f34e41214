import SpanStore.Fault
import SpanStore.Net.Url
import SpanStore.Text.Blank

/-!
Endpoints of the cluster. Several endpoints act as one cluster, so they share scheme and port;
connections then go to addresses, which no certificate names, so several endpoints need `http`.
-/
namespace SpanStore.Net

structure Endpoint where
  scheme : String
  host : String
  port : Nat
  pathPrefix : String
  deriving DecidableEq

namespace Endpoint

def hostText (host : String) : String :=
  if host.toList.contains ':' then "[" ++ host ++ "]" else host

def url (e : Endpoint) : String :=
  e.scheme ++ "://" ++ hostText e.host ++ ":" ++ toString e.port ++ e.pathPrefix

def defaultPort? (scheme : String) : Option Nat :=
  if scheme = "http" then some 80 else if scheme = "https" then some 443 else none

def parse (url : String) : Except Fault Endpoint :=
  match Url.split? (Text.trim url.toList) with
  | none => .error .malformedUrl
  | some u =>
      let scheme := String.ofList u.scheme
      match defaultPort? scheme with
      | none => .error (.unsupportedScheme scheme url)
      | some defaultPort =>
          if u.hostAndPort.1.isEmpty then .error (.missingHost url)
          else
            match u.port? with
            | none => .error (.badPort url)
            | some port =>
                .ok ⟨scheme, u.host, port.getD defaultPort,
                  String.ofList (u.path.reverse.dropWhile (· == '/')).reverse⟩

/-- Read the endpoints of one cluster, up to the first that cannot be read. Each counts once,
where it came first. -/
def parseAll (urls : List String) : Except Fault (List Endpoint) :=
  match urls.mapM parse with
  | .error f => .error f
  | .ok parsed =>
      let endpoints := parsed.eraseDups
      match endpoints with
      | [] => .error .noEndpoints
      | e :: others =>
          if others.any (·.scheme != e.scheme) then .error (.mixedSchemes urls)
          else if others.any (·.port != e.port) then .error (.mixedPorts urls)
          else if !others.isEmpty && e.scheme != "http" then .error (.secureCluster urls)
          else .ok endpoints

end Endpoint

end SpanStore.Net
