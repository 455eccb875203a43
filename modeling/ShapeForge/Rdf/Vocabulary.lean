/-!
# Vocabularies

The IRIs that shapes graphs are written with.
-/

namespace ShapeForge.Rdf

def xsdNamespace : String := "http://www.w3.org/2001/XMLSchema#"

def rdfNamespace : String := "http://www.w3.org/1999/02/22-rdf-syntax-ns#"

def rdfsNamespace : String := "http://www.w3.org/2000/01/rdf-schema#"

def owlNamespace : String := "http://www.w3.org/2002/07/owl#"

def shNamespace : String := "http://www.w3.org/ns/shacl#"

def xsd (name : String) : String := xsdNamespace ++ name

def rdfType : String := rdfNamespace ++ "type"

def rdfFirst : String := rdfNamespace ++ "first"

def rdfRest : String := rdfNamespace ++ "rest"

def rdfNil : String := rdfNamespace ++ "nil"

def rdfsClass : String := rdfsNamespace ++ "Class"

def rdfsSubClassOf : String := rdfsNamespace ++ "subClassOf"

def owlClass : String := owlNamespace ++ "Class"

def sh (name : String) : String := shNamespace ++ name

end ShapeForge.Rdf
