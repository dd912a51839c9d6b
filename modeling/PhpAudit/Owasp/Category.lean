/-
The ten OWASP categories of 2021.
-/

set_option autoImplicit false

namespace PhpAudit.Owasp

/-- The categories, in the order of their codes. -/
inductive Category where
  | accessControl
  | cryptography
  | injection
  | design
  | misconfiguration
  | components
  | authentication
  | integrity
  | logging
  | requestForgery
  deriving DecidableEq, Inhabited

namespace Category

/-- All categories. -/
def all : List Category :=
  [accessControl, cryptography, injection, design, misconfiguration, components, authentication,
   integrity, logging, requestForgery]

/-- The code of a category. -/
def code : Category → String
  | accessControl => "A01"
  | cryptography => "A02"
  | injection => "A03"
  | design => "A04"
  | misconfiguration => "A05"
  | components => "A06"
  | authentication => "A07"
  | integrity => "A08"
  | logging => "A09"
  | requestForgery => "A10"

/-- The category of a code. -/
def ofCode? (word : String) : Option Category :=
  all.find? fun c => c.code == word

/-- The name of a category. -/
def name : Category → String
  | accessControl => "Broken Access Control"
  | cryptography => "Cryptographic Failures"
  | injection => "Injection"
  | design => "Insecure Design"
  | misconfiguration => "Security Misconfiguration"
  | components => "Vulnerable and Outdated Components"
  | authentication => "Identification and Authentication Failures"
  | integrity => "Software and Data Integrity Failures"
  | logging => "Security Logging and Monitoring Failures"
  | requestForgery => "Server-Side Request Forgery"

/-- What goes wrong. -/
def description : Category → String
  | accessControl =>
    "Restrictions on what authenticated users are allowed to do are often not properly enforced"
  | cryptography =>
    "Failures related to cryptography which often lead to sensitive data exposure"
  | injection => "Injection flaws occur when untrusted data is sent to an interpreter"
  | design => "Missing or ineffective control design"
  | misconfiguration =>
    "Insecure default configurations, verbose errors and unnecessary features"
  | components => "Components with known vulnerabilities or removed APIs"
  | authentication => "Authentication and credential management implemented incorrectly"
  | integrity => "Code and infrastructure that does not protect against integrity violations"
  | logging => "Insufficient logging and monitoring"
  | requestForgery =>
    "Web application fetching a remote resource without validating the URL"

/-- What it leads to. -/
def impact : Category → String
  | accessControl =>
    "High - attackers can act as users or administrators, or reach files outside the web root"
  | cryptography => "High - sensitive data exposure, credential cracking"
  | injection =>
    "Critical - data loss, corruption, unauthorized access, complete system compromise"
  | design => "Variable - depends on protection needs of application and data"
  | misconfiguration => "Medium - unauthorized access to system data or functionality"
  | components => "Variable - ranges from minimal to complete host takeover"
  | authentication => "High - compromise of user accounts and service credentials"
  | integrity => "High - object injection, unauthorized code execution"
  | logging => "Medium - delayed attack detection, forensic difficulties"
  | requestForgery => "High - internal network scanning, sensitive data exposure"

end Category

end PhpAudit.Owasp
