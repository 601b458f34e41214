import SpanStore.Http.Link
import SpanStore.Response.Place
import SpanStore.Template.IndexTemplate

namespace SpanStore.Template

open Http (Call Client Link Request Target)
open Json (Value)

def versionRequest : Request := Request.plain "GET" [""] "get-node"

def readVersion (body : List UInt8) : Except Fault String :=
  match Response.read ["version", "number"] body with
  | .error f => .error f
  | .ok v =>
      match v.bind Value.text? with
      | some version => .ok version
      | none => .error .versionMissing

def version (c : Client) : Call String :=
  c.execute versionRequest (Call.ofConversion readVersion)

def lookRequest (name : String) : Request := Request.plain "GET" ["_template", name] "get-template"

def installRequest (name text : String) : Request :=
  Request.build "PUT" ["_template", name] "update-template" [] (.text text) Http.json

/-- Install a template unless one of its name is there; tell whether it was installed. -/
def install (name text : String) (c : Client) : Call Bool := fun w =>
  match c.execute (lookRequest name) Call.ignore w with
  | (.ok (), w) => (.ok false, w)
  | (.error f, w) =>
      if f.kind = .notFound then
        match c.execute (installRequest name text) Call.ignore w with
        | (.ok (), w) => (.ok true, w)
        | (.error f, w) => (.error f, w)
      else (.error f, w)

structure Schema where
  target : Target
  template : IndexTemplate
  name : String
  once : Once Unit

namespace Schema

/-- A schema that is not checked yet. Without a name of its own the template is named for the
index. -/
def create (target : Target) (template : IndexTemplate) (name : Option String) : Schema :=
  let name := name.getD ""
  ⟨target, template, if name.isEmpty then template.index ++ "_template" else name, .fresh⟩

def describe (s : Schema) : String :=
  "SchemaBootstrapper(" ++ s.name ++ ", state=" ++ s.once.phaseName ++ ")"

def bootstrap (s : Schema) (l : Link) : Except Fault Unit × Link :=
  match l.call s.target version with
  | (.error f, l) => (.error f, l)
  | (.ok number, l) =>
      match Branch.ofVersion (some number) with
      | .error f => (.error f, l)
      | .ok branch =>
          match l.call s.target (install s.name (s.template.renderText branch)) with
          | (.error f, l) => (.error f, l)
          | (.ok _, l) => (.ok (), l)

def ensure (s : Schema) (l : Link) : Except Fault Unit × Schema × Link :=
  let (r, once, l) := s.once.get (fun _ l => s.bootstrap l) l
  (r, { s with once := once }, l)

end Schema

end SpanStore.Template
