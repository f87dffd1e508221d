import PocketReader.Script.Heap

/-! The objects that exist before any script runs. Most functions of the script language are only there to be looked
at: they have their names and lengths, and do nothing. -/
namespace PocketReader.Script

open PocketReader.Text

namespace Standard

/-! The first objects, which others refer to. -/

def objectPrototype : Nat := 0
def functionPrototype : Nat := 1
def arrayPrototype : Nat := 2
def textPrototype : Nat := 3
def numberPrototype : Nat := 4
def booleanPrototype : Nat := 5
def symbolPrototype : Nat := 6
def errorPrototype : Nat := 7

def globals : Nat := 8

def textValue (s : String) : Value := .text (Units.ofString s)

def fixed (v : Value) : Property := .data v false

def writable (v : Value) : Property := .data v true

/-- A name, a number of arguments and what is done. -/
abbrev Entry := String × Nat × Native

def inert (what : Native) (entries : List (String × Nat)) : List Entry :=
  entries.map fun (name, arity) => (name, arity, what)

abbrev Build := StateM Heap

def place (o : Object) : Build Nat := modifyGet fun heap => (heap.size, heap.push o)

def give (owner : Nat) (name : String) (p : Property) : Build Unit :=
  modify fun heap => heap.change owner fun o => { o with properties := o.properties ++ [(name, p)] }

def placeFunction (name : String) (arity : Nat) (n : Native) : Build Nat :=
  place
    { form := .native n, prototype? := some functionPrototype
      properties := [("length", fixed (.number arity.toFloat)), ("name", fixed (textValue name))] }

def giveFunctions (owner : Nat) (entries : List Entry) : Build Unit :=
  entries.forM fun (name, arity, n) => do
    let f ← placeFunction name arity n
    give owner name (writable (.object f))

def giveConstants (owner : Nat) (entries : List (String × Value)) : Build Unit :=
  entries.forM fun (name, v) => give owner name (fixed v)

/-- A function that makes objects of a prototype; both know each other. -/
def giveMaker (name : String) (arity : Nat) (n : Native) (prototype : Nat) : Build Nat := do
  let f ← placeFunction name arity n
  give f "prototype" (fixed (.object prototype))
  give prototype "constructor" (writable (.object f))
  give globals name (writable (.object f))
  return f

def placePlain (tag? : Option String) : Build Nat :=
  place { form := .plain, prototype? := some objectPrototype, tag? }

def firstObjects : Heap :=
  #[{ form := .plain, prototype? := none },
    { form := .native .nothing, prototype? := some objectPrototype
      properties := [("length", fixed (.number 0)), ("name", fixed (.text []))] },
    { form := .array [] 0, prototype? := some objectPrototype },
    { form := .wrapper (.text []), prototype? := some objectPrototype },
    { form := .wrapper (.number 0), prototype? := some objectPrototype },
    { form := .wrapper (.boolean false), prototype? := some objectPrototype },
    { form := .plain, prototype? := some objectPrototype, tag? := some "Symbol" },
    { form := .plain, prototype? := some objectPrototype },
    { form := .plain, prototype? := some objectPrototype, tag? := some "global" }]

/-! What the page gives. -/

def consoleFunctions : List (String × Level) :=
  [("log", .info), ("info", .info), ("warn", .warn), ("error", .error)]

/-- A function of the page has no name of its own. -/
def givePageFunction (owner : Nat) (name : String) (n : Native) : Build Unit := do
  let f ← place
    { form := .native n, prototype? := some functionPrototype, properties := [("length", fixed (.number 0))] }
  give owner name (writable (.object f))

def buildPage : Build Unit := do
  let console ← placePlain none
  consoleFunctions.forM fun (name, level) => givePageFunction console name (.console level)
  give globals "console" (writable (.object console))
  let document ← placePlain none
  givePageFunction document "getElementById" .getElementById
  give globals "document" (writable (.object document))

/-! What the script language gives. -/

def buildObjects : Build Unit := do
  let maker ← giveMaker "Object" 1 .object objectPrototype
  giveFunctions maker (inert .nothing
    [ ("create", 2), ("getPrototypeOf", 1), ("setPrototypeOf", 2), ("defineProperty", 3), ("defineProperties", 2),
      ("getOwnPropertyNames", 1), ("getOwnPropertySymbols", 1), ("groupBy", 2), ("keys", 1), ("values", 1),
      ("entries", 1), ("isExtensible", 1), ("preventExtensions", 1), ("getOwnPropertyDescriptor", 2),
      ("getOwnPropertyDescriptors", 1), ("is", 2), ("assign", 2), ("seal", 1), ("freeze", 1), ("isSealed", 1),
      ("isFrozen", 1), ("fromEntries", 1), ("hasOwn", 2) ])
  giveFunctions objectPrototype
    ([ ("toString", 0, .objectText), ("toLocaleString", 0, .objectLocalText), ("valueOf", 0, .objectValue),
       ("hasOwnProperty", 1, .hasOwnProperty), ("isPrototypeOf", 1, .isPrototypeOf),
       ("propertyIsEnumerable", 1, .hasOwnProperty), ("__defineSetter__", 2, .defineSetter) ] ++
      inert .nothingOnObject [("__defineGetter__", 2), ("__lookupGetter__", 1), ("__lookupSetter__", 1)])
  give objectPrototype "__proto__" (.accessor (some .prototype) .prototype)

def buildFunctions : Build Unit := do
  let _ ← giveMaker "Function" 1 .function functionPrototype
  giveFunctions functionPrototype
    [("call", 1, .call), ("apply", 2, .apply), ("bind", 1, .nothing), ("toString", 0, .functionText)]
  give functionPrototype "caller" (.accessor (some .forbidden) .forbidden)
  give functionPrototype "arguments" (.accessor (some .forbidden) .forbidden)

def errorKinds : List String :=
  [ "EvalError", "RangeError", "ReferenceError", "SyntaxError", "TypeError", "URIError", "InternalError" ]

def placeErrorPrototype (name : String) : Build Nat := do
  let prototype ← place { form := .plain, prototype? := some errorPrototype }
  give prototype "name" (writable (textValue name))
  give prototype "message" (writable (.text []))
  return prototype

def buildErrors : Build Unit := do
  let maker ← giveMaker "Error" 1 (.error errorPrototype) errorPrototype
  giveFunctions maker (inert .nothing [("captureStackTrace", 2)])
  give maker "stackTraceLimit" (writable (.number 10))
  give errorPrototype "name" (writable (textValue "Error"))
  give errorPrototype "message" (writable (.text []))
  giveFunctions errorPrototype [("toString", 0, .errorText)]
  errorKinds.forM fun name => do
    let prototype ← placeErrorPrototype name
    let _ ← giveMaker name 1 (.error prototype) prototype
  let prototype ← placeErrorPrototype "AggregateError"
  let _ ← giveMaker "AggregateError" 2 (.errorOfMany prototype) prototype

def buildArrays : Build Unit := do
  let maker ← giveMaker "Array" 1 .array arrayPrototype
  giveFunctions maker ([("isArray", 1, .isArray)] ++ inert .nothing [("from", 1), ("of", 0), ("fromAsync", 1)])
  giveFunctions arrayPrototype
    ([ ("toString", 0, .arrayText), ("join", 1, .join), ("push", 1, .push), ("pop", 0, .pop), ("shift", 0, .shift),
       ("unshift", 1, .unshift), ("reverse", 0, .reverse) ] ++
      inert .nothingOnObject
        [ ("at", 1), ("with", 2), ("concat", 1), ("every", 1), ("some", 1), ("forEach", 1), ("map", 1), ("filter", 1),
          ("reduce", 1), ("reduceRight", 1), ("fill", 1), ("find", 1), ("findIndex", 1), ("findLast", 1),
          ("findLastIndex", 1), ("indexOf", 1), ("lastIndexOf", 1), ("includes", 1), ("toLocaleString", 0),
          ("toReversed", 0), ("sort", 1), ("toSorted", 1), ("slice", 2), ("splice", 2), ("toSpliced", 2),
          ("copyWithin", 2), ("flatMap", 1), ("flat", 0), ("values", 0), ("keys", 0), ("entries", 0) ])

def buildTexts : Build Unit := do
  let maker ← giveMaker "String" 1 .text textPrototype
  giveFunctions maker (inert .nothing [("fromCharCode", 1), ("fromCodePoint", 1), ("raw", 1)])
  giveFunctions textPrototype
    ([("toString", 0, .textValue), ("valueOf", 0, .textValue)] ++
      inert .nothingOnText
        [ ("at", 1), ("charCodeAt", 1), ("charAt", 1), ("concat", 1), ("codePointAt", 1), ("isWellFormed", 0),
          ("toWellFormed", 0), ("indexOf", 1), ("lastIndexOf", 1), ("includes", 1), ("endsWith", 1),
          ("startsWith", 1), ("match", 1), ("matchAll", 1), ("search", 1), ("split", 2), ("substring", 2),
          ("substr", 2), ("slice", 2),
          ("repeat", 1), ("replace", 2), ("replaceAll", 2), ("padEnd", 1), ("padStart", 1), ("trim", 0),
          ("trimEnd", 0), ("trimRight", 0), ("trimStart", 0), ("trimLeft", 0), ("localeCompare", 1),
          ("normalize", 0), ("toLowerCase", 0), ("toUpperCase", 0), ("toLocaleLowerCase", 0),
          ("toLocaleUpperCase", 0), ("anchor", 1), ("big", 0), ("blink", 0), ("bold", 0), ("fixed", 0),
          ("fontcolor", 1), ("fontsize", 1), ("italics", 0), ("link", 1), ("small", 0), ("strike", 0), ("sub", 0),
          ("sup", 0) ])

def buildNumbers : Build Unit := do
  let maker ← giveMaker "Number" 1 .number numberPrototype
  giveFunctions maker
    ([("parseInt", 2, .parseInteger), ("parseFloat", 1, .parseNumber)] ++
      inert .nothing [("isNaN", 1), ("isFinite", 1), ("isInteger", 1), ("isSafeInteger", 1)])
  giveConstants maker
    [ ("MAX_VALUE", .number (Float.ofBits 0x7fefffffffffffff)), ("MIN_VALUE", .number (Float.ofBits 1)),
      ("NaN", .number (0 / 0)), ("NEGATIVE_INFINITY", .number (-1 / 0)), ("POSITIVE_INFINITY", .number (1 / 0)),
      ("EPSILON", .number (Float.ofBits 0x3cb0000000000000)), ("MAX_SAFE_INTEGER", .number 9007199254740991),
      ("MIN_SAFE_INTEGER", .number (-9007199254740991)) ]
  giveFunctions numberPrototype
    ([("toString", 1, .numberText), ("valueOf", 0, .numberValue)] ++
      inert .nothing [("toExponential", 1), ("toFixed", 1), ("toPrecision", 1), ("toLocaleString", 0)])
  let _ ← giveMaker "Boolean" 1 .boolean booleanPrototype
  giveFunctions booleanPrototype [("toString", 0, .booleanText), ("valueOf", 0, .booleanValue)]
  giveFunctions globals
    [("parseInt", 2, .parseInteger), ("parseFloat", 1, .parseNumber), ("isNaN", 1, .isNaN),
      ("isFinite", 1, .isFinite)]

def symbolNames : List String :=
  [ "toPrimitive", "iterator", "match", "matchAll", "replace", "search", "split", "toStringTag",
    "isConcatSpreadable", "hasInstance", "species", "unscopables", "asyncIterator" ]

def buildSymbols : Build Unit := do
  let maker ← giveMaker "Symbol" 0 .symbol symbolPrototype
  giveFunctions maker (inert .nothing [("for", 1), ("keyFor", 1)])
  giveConstants maker (symbolNames.map fun name => (name, .symbol (some (Units.ofString ("Symbol." ++ name)))))
  giveFunctions symbolPrototype [("toString", 0, .symbolText), ("valueOf", 0, .symbolValue)]

def buildMath : Build Unit := do
  let math ← placePlain (some "Math")
  giveFunctions math
    ([ ("min", 2, .extreme false), ("max", 2, .extreme true), ("abs", 1, .arithmetic .abs),
       ("floor", 1, .arithmetic .floor), ("ceil", 1, .arithmetic .ceil), ("round", 1, .arithmetic .round),
       ("sqrt", 1, .arithmetic .sqrt), ("trunc", 1, .arithmetic .trunc), ("sign", 1, .arithmetic .sign) ] ++
      inert .nothing
        [ ("acos", 1), ("asin", 1), ("atan", 1), ("atan2", 2), ("cos", 1), ("exp", 1), ("log", 1), ("pow", 2),
          ("sin", 1), ("tan", 1), ("cosh", 1), ("sinh", 1), ("tanh", 1), ("acosh", 1), ("asinh", 1), ("atanh", 1),
          ("expm1", 1), ("log1p", 1), ("log2", 1), ("log10", 1), ("cbrt", 1), ("hypot", 2), ("random", 0),
          ("fround", 1), ("imul", 2), ("clz32", 1) ])
  giveConstants math
    [ ("E", .number 2.718281828459045), ("LN10", .number 2.302585092994046), ("LN2", .number 0.6931471805599453),
      ("LOG2E", .number 1.4426950408889634), ("LOG10E", .number 0.4342944819032518),
      ("PI", .number 3.141592653589793), ("SQRT1_2", .number 0.7071067811865476),
      ("SQRT2", .number 1.4142135623730951) ]
  give globals "Math" (writable (.object math))

/-- An object that only holds functions. -/
def giveHolder (name : String) (entries : List Entry) : Build Unit := do
  let holder ← placePlain (some name)
  giveFunctions holder entries
  give globals name (writable (.object holder))

/-- Kinds of object that are made only after `new`, with their functions. -/
def makers : List (String × Nat × List (String × Nat)) :=
  [ ("Map", 0, [("set", 2), ("get", 1), ("has", 1), ("delete", 1), ("clear", 0), ("forEach", 1), ("values", 0),
      ("keys", 0), ("entries", 0)]),
    ("Set", 0, [("add", 1), ("has", 1), ("delete", 1), ("clear", 0), ("forEach", 1), ("values", 0), ("keys", 0),
      ("entries", 0)]),
    ("WeakMap", 0, [("set", 2), ("get", 1), ("has", 1), ("delete", 1)]),
    ("WeakSet", 0, [("add", 1), ("has", 1), ("delete", 1)]),
    ("WeakRef", 1, [("deref", 0)]),
    ("FinalizationRegistry", 1, [("register", 2), ("unregister", 1)]),
    ("Promise", 1, [("then", 2), ("catch", 1), ("finally", 1)]),
    ("Proxy", 2, []),
    ("Iterator", 0, []),
    ("ArrayBuffer", 1, [("slice", 2), ("resize", 1)]),
    ("SharedArrayBuffer", 1, [("slice", 2), ("grow", 1)]),
    ("Int8Array", 3, []), ("Uint8Array", 3, []), ("Uint8ClampedArray", 3, []), ("Int16Array", 3, []),
    ("Uint16Array", 3, []), ("Int32Array", 3, []), ("Uint32Array", 3, []), ("BigInt64Array", 3, []),
    ("BigUint64Array", 3, []), ("Float16Array", 3, []), ("Float32Array", 3, []), ("Float64Array", 3, []),
    ("DataView", 1, []),
    ("DOMException", 2, []) ]

def buildOthers : Build Unit := do
  makers.forM fun (name, arity, functions) => do
    let prototype ← placePlain (some name)
    giveFunctions prototype (inert .nothing functions)
    let _ ← giveMaker name arity (.makeOnly prototype) prototype
  let bigPrototype ← placePlain (some "BigInt")
  let _ ← giveMaker "BigInt" 1 .bigInteger bigPrototype
  let datePrototype ← placePlain none
  let dates ← giveMaker "Date" 7 (.make datePrototype) datePrototype
  giveFunctions dates (inert .nothing [("now", 0), ("parse", 1), ("UTC", 7)])
  let patternPrototype ← placePlain none
  let _ ← giveMaker "RegExp" 2 (.make patternPrototype) patternPrototype
  giveFunctions patternPrototype ([("toString", 0, .patternText)] ++ inert .nothing [("exec", 1), ("test", 1)])
  giveHolder "JSON" (inert .nothing [("parse", 2), ("stringify", 3)])
  giveHolder "Reflect" (inert .nothing
    [ ("apply", 3), ("construct", 2), ("defineProperty", 3), ("deleteProperty", 2), ("get", 2),
      ("getOwnPropertyDescriptor", 2), ("getPrototypeOf", 1), ("has", 2), ("isExtensible", 1), ("ownKeys", 1),
      ("preventExtensions", 1), ("set", 3), ("setPrototypeOf", 2) ])
  giveHolder "Atomics" (inert .nothing
    [ ("add", 3), ("and", 3), ("or", 3), ("sub", 3), ("xor", 3), ("exchange", 3), ("compareExchange", 4), ("load", 2),
      ("store", 3), ("isLockFree", 1), ("pause", 0), ("wait", 4), ("notify", 3) ])
  giveHolder "performance" (inert .nothing [("now", 0)])
  giveFunctions globals
    ([("eval", 1, .same), ("queueMicrotask", 1, .withFunction)] ++
      inert .asText
        [ ("decodeURI", 1), ("decodeURIComponent", 1), ("encodeURI", 1), ("encodeURIComponent", 1), ("escape", 1),
          ("unescape", 1) ])
  giveConstants globals
    [("undefined", .undefined), ("NaN", .number (0 / 0)), ("Infinity", .number (1 / 0))]
  give globals "globalThis" (writable (.object globals))

def build : Build Unit := do
  buildPage
  buildObjects
  buildFunctions
  buildErrors
  buildArrays
  buildTexts
  buildNumbers
  buildSymbols
  buildMath
  buildOthers

def heap : Heap := (build.run firstObjects).2

end Standard
end PocketReader.Script
